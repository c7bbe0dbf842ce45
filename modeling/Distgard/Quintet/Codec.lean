import Distgard.Lib.Decoder
import Distgard.Quintet.Channels
import Mathlib.Algebra.GroupWithZero.Nat
import Mathlib.Data.List.Induction

/-!
# Messages in a stream

A reliable channel writes its messages to a stream, each as a frame: the length of what follows in
four bytes, the greatest first; the id of the channel; the bytes of the message. The other end is
given the bytes of the stream in pieces, cuts them into frames, and takes the id off each. It gives
up the stream when a frame is too long, and its task panics at a frame without an id.

## What is proved

* `reliableStreamReceiverTask_spec` — whatever bytes arrive, and in whatever pieces, the messages
  that are read are those that the bytes start with; and of the messages that a channel was given
  all arrive that have not the largest length, up to the first one that has it. For the length that
  is compared with the largest one is that of the message where it is written, and where it is read
  that of the frame, which is greater by the id.
-/

namespace Distgard.Quintet

open Lib

def DEFAULT_MAX_RELIABLE_FRAME_LEN : ℕ := 8 * 1024 * 1024

def RELIABLE_FRAME_LENGTH_FIELD_LEN : ℕ := 4

def RELIABLE_FRAME_TOTAL_HEADER_LEN : ℕ := RELIABLE_FRAME_LENGTH_FIELD_LEN + PROTOCOL_HEADER_LEN

/-! ### Numbers -/

/-- The low bytes of a number, the greatest first. -/
def putUint (n : ℕ) : ℕ → Bytes
  | 0 => []
  | nbytes + 1 => putUint (n / 256) nbytes ++ [UInt8.ofNat n]

/-- The number that some bytes are, the greatest first. -/
def getUint (bytes : Bytes) : ℕ := bytes.foldl (fun n b => 256 * n + b.toNat) 0

@[simp] theorem length_putUint (n nbytes : ℕ) : (putUint n nbytes).length = nbytes := by
  induction nbytes generalizing n with
  | zero => rfl
  | succ nbytes ih => rw [putUint, List.length_append, ih, List.length_singleton]

theorem getUint_concat (bytes : Bytes) (b : UInt8) : getUint (bytes ++ [b]) = 256 * getUint bytes + b.toNat := by
  rw [getUint, List.foldl_append]
  rfl

/-- A number that is small enough is read again. -/
theorem getUint_putUint {n nbytes : ℕ} (h : n < 256 ^ nbytes) : getUint (putUint n nbytes) = n := by
  induction nbytes generalizing n with
  | zero => simp_all [putUint, getUint]
  | succ nbytes ih =>
    rw [putUint, getUint_concat, ih (Nat.div_lt_of_lt_mul (by rwa [Nat.pow_succ'] at h)), UInt8.toNat_ofNat']
    exact Nat.div_add_mod n 256

/-- The bytes that are read as a number are those that it is written as. -/
theorem putUint_getUint (bytes : Bytes) : putUint (getUint bytes) bytes.length = bytes := by
  induction bytes using List.reverseRecOn with
  | nil => rfl
  | append_singleton bytes b ih =>
    have hb := b.toNat_lt
    have hdiv : (256 * getUint bytes + b.toNat) / 256 = getUint bytes := by omega
    have hmod : UInt8.ofNat (256 * getUint bytes + b.toNat) = b := by
      rw [← UInt8.toNat_inj, UInt8.toNat_ofNat']
      omega
    rw [getUint_concat, List.length_append, List.length_singleton, putUint, hdiv, hmod, ih]

/-! ### The encoder -/

/-- "frame size too big". -/
inductive QuintetProtocolCodecError where
  /-- The only error. -/
  | tooBig
  deriving DecidableEq

/-- Append a frame to the bytes that are to be sent. -/
def encode (rawChannelId : ChannelId) (maxFrameLen : ℕ) (frame dst : Bytes) : Except QuintetProtocolCodecError Bytes :=
  if maxFrameLen < frame.length then
    .error .tooBig
  else
    .ok (dst ++ putUint (PROTOCOL_HEADER_LEN + frame.length) RELIABLE_FRAME_LENGTH_FIELD_LEN ++ [rawChannelId] ++ frame)

/-- What a channel task writes to its stream when it is given these messages: a message that cannot
be encoded is reported, and left out. -/
def written (rawChannelId : ChannelId) (maxFrameLen : ℕ) : List Bytes → Bytes → Bytes
  | [], dst => dst
  | msg :: msgs, dst =>
    match encode rawChannelId maxFrameLen msg dst with
    | .ok dst => written rawChannelId maxFrameLen msgs dst
    | .error _ => written rawChannelId maxFrameLen msgs dst

/-! ### The decoder -/

/-- What is read next. -/
inductive DecodeState where
  /-- The length of a frame. -/
  | Head
  /-- A frame of this length. -/
  | Data (payloadLength : ℕ)
  deriving DecidableEq

/-- Read the length of a frame, if the header is there. -/
def decodeHead (maxFrameLen : ℕ) (src : Bytes) : Except QuintetProtocolCodecError (Option (ℕ × Bytes)) :=
  if src.length < RELIABLE_FRAME_TOTAL_HEADER_LEN then
    .ok none
  else
    let payloadLength := getUint (src.take RELIABLE_FRAME_LENGTH_FIELD_LEN)
    if maxFrameLen < payloadLength then
      .error .tooBig
    else
      .ok (some (payloadLength, src.drop RELIABLE_FRAME_LENGTH_FIELD_LEN))

/-- Take a frame off the bytes, if it is there. -/
def decodeData (payloadLength : ℕ) (src : Bytes) : Decoded DecodeState UInt8 Bytes QuintetProtocolCodecError :=
  if src.length < payloadLength then
    .wait (.Data payloadLength) src
  else
    .item (src.take payloadLength) .Head (src.drop payloadLength)

/-- Read a frame. -/
def decode (maxFrameLen : ℕ) (state : DecodeState) (src : Bytes) :
    Decoded DecodeState UInt8 Bytes QuintetProtocolCodecError :=
  match state with
  | .Head =>
    match decodeHead maxFrameLen src with
    | .ok (some (payloadLength, src)) => decodeData payloadLength src
    | .ok none => .wait .Head src
    | .error e => .fail e
  | .Data payloadLength => decodeData payloadLength src

theorem decodeHead_append {maxFrameLen : ℕ} {src : Bytes} (h : RELIABLE_FRAME_TOTAL_HEADER_LEN ≤ src.length) (more : Bytes) :
    decodeHead maxFrameLen (src ++ more) =
      (decodeHead maxFrameLen src).map (·.map fun head => (head.1, head.2 ++ more)) := by
  have hfour : RELIABLE_FRAME_LENGTH_FIELD_LEN ≤ src.length := Nat.le_of_succ_le h
  have hlong : ¬ (src ++ more).length < RELIABLE_FRAME_TOTAL_HEADER_LEN := by
    rw [List.length_append]
    omega
  unfold decodeHead
  rw [if_neg hlong, if_neg (Nat.not_lt.mpr h), List.take_append_of_le_length hfour, List.drop_append_of_le_length hfour]
  dsimp only
  by_cases hbig : maxFrameLen < getUint (src.take RELIABLE_FRAME_LENGTH_FIELD_LEN)
  · rw [if_pos hbig, if_pos hbig]
    rfl
  · rw [if_neg hbig, if_neg hbig]
    rfl

theorem decodeHead_error {maxFrameLen : ℕ} {src : Bytes} {e : QuintetProtocolCodecError}
    (h : decodeHead maxFrameLen src = .error e) : RELIABLE_FRAME_TOTAL_HEADER_LEN ≤ src.length := by
  unfold decodeHead at h
  split at h
  · cases h
  · next hlength => exact Nat.le_of_not_lt hlength

/-- The header that is read is the one that stands before the rest. -/
theorem decodeHead_some {maxFrameLen payloadLength : ℕ} {src rest : Bytes}
    (h : decodeHead maxFrameLen src = .ok (some (payloadLength, rest))) :
    payloadLength ≤ maxFrameLen ∧ RELIABLE_FRAME_TOTAL_HEADER_LEN ≤ src.length ∧
      src = putUint payloadLength RELIABLE_FRAME_LENGTH_FIELD_LEN ++ rest := by
  unfold decodeHead at h
  split at h
  · cases h
  · next hlength =>
    have hlong := Nat.le_of_not_lt hlength
    dsimp only at h
    split at h
    · cases h
    · next hle =>
      cases h
      have htake : (src.take RELIABLE_FRAME_LENGTH_FIELD_LEN).length = RELIABLE_FRAME_LENGTH_FIELD_LEN :=
        List.length_take_of_le (Nat.le_of_succ_le hlong)
      have hput := putUint_getUint (src.take RELIABLE_FRAME_LENGTH_FIELD_LEN)
      rw [htake] at hput
      exact ⟨Nat.le_of_not_lt hle, hlong, by rw [hput, List.take_append_drop]⟩

/-- A header is read if the rest is not empty and the length not too large. -/
theorem decodeHead_putUint (maxFrameLen : ℕ) {payloadLength : ℕ} {rest : Bytes} (hrest : rest ≠ [])
    (hlt : payloadLength < 256 ^ RELIABLE_FRAME_LENGTH_FIELD_LEN) :
    decodeHead maxFrameLen (putUint payloadLength RELIABLE_FRAME_LENGTH_FIELD_LEN ++ rest) =
      if maxFrameLen < payloadLength then .error .tooBig else .ok (some (payloadLength, rest)) := by
  have hlong : ¬ (putUint payloadLength RELIABLE_FRAME_LENGTH_FIELD_LEN ++ rest).length < RELIABLE_FRAME_TOTAL_HEADER_LEN := by
    have hpos := List.length_pos_of_ne_nil hrest
    rw [List.length_append, length_putUint, RELIABLE_FRAME_TOTAL_HEADER_LEN, PROTOCOL_HEADER_LEN, CHANNEL_ID_LEN]
    omega
  unfold decodeHead
  rw [if_neg hlong, List.take_left' (length_putUint _ _), List.drop_left' (length_putUint _ _), getUint_putUint hlt]

theorem decodeData_item {payloadLength : ℕ} {src a rest : Bytes} {s : DecodeState}
    (h : decodeData payloadLength src = .item a s rest) :
    s = .Head ∧ payloadLength = a.length ∧ src = a ++ rest := by
  unfold decodeData at h
  split at h
  · cases h
  · next hlength =>
    cases h
    exact ⟨rfl, (List.length_take_of_le (Nat.le_of_not_lt hlength)).symm, (List.take_append_drop payloadLength src).symm⟩

theorem decodeData_wait {payloadLength : ℕ} {src rest : Bytes} {s : DecodeState}
    (h : decodeData payloadLength src = .wait s rest) : s = .Data payloadLength ∧ rest = src := by
  unfold decodeData at h
  split at h <;> cases h
  exact ⟨rfl, rfl⟩

theorem decodeData_not_fail {payloadLength : ℕ} {src : Bytes} {e : QuintetProtocolCodecError} :
    decodeData payloadLength src ≠ .fail e := by
  unfold decodeData
  split <;> exact fun h => nomatch h

/-- A frame is read as soon as it is there. -/
theorem decodeData_append (payload more : Bytes) :
    decodeData payload.length (payload ++ more) = .item payload .Head more := by
  have hlong : ¬ (payload ++ more).length < payload.length := by
    rw [List.length_append]
    omega
  rw [decodeData, if_neg hlong, List.take_left, List.drop_left]

/-- Once the header has been read, only the frame counts. -/
theorem decode_Head_append {maxFrameLen payloadLength : ℕ} {src rest : Bytes}
    (h : decodeHead maxFrameLen src = .ok (some (payloadLength, rest))) (more : Bytes) :
    decode maxFrameLen .Head (src ++ more) = decodeData payloadLength (rest ++ more) := by
  rw [decode, decodeHead_append (decodeHead_some h).2.1, h]
  rfl

/-- What is left to be done in a state: an empty frame takes no bytes. -/
def DecodeState.weight : DecodeState → ℕ
  | .Head => 0
  | .Data _ => 1

/-- What reading in a state comes to: a wait for the header, an error in it, or a frame. -/
theorem decode_cases (maxFrameLen : ℕ) (s : DecodeState) (src : Bytes) :
    (s = .Head ∧ decode maxFrameLen s src = .wait .Head src) ∨
    (∃ e, decode maxFrameLen s src = .fail e ∧ ∀ more, decode maxFrameLen s (src ++ more) = .fail e) ∨
    ∃ payloadLength rest, rest.length + 1 ≤ src.length + s.weight ∧
      ∀ more, decode maxFrameLen s (src ++ more) = decodeData payloadLength (rest ++ more) := by
  cases s with
  | Head =>
    cases hhead : decodeHead maxFrameLen src with
    | error e =>
      refine .inr (.inl ⟨e, by rw [decode, hhead], fun more => ?_⟩)
      rw [decode, decodeHead_append (decodeHead_error hhead), hhead]
      rfl
    | ok head =>
      rcases head with _ | ⟨payloadLength, rest⟩
      · exact .inl ⟨rfl, by rw [decode, hhead]⟩
      · refine .inr (.inr ⟨payloadLength, rest, ?_, decode_Head_append hhead⟩)
        have hlength := congrArg List.length (decodeHead_some hhead).2.2
        rw [List.length_append, length_putUint, RELIABLE_FRAME_LENGTH_FIELD_LEN] at hlength
        omega
  | Data payloadLength => exact .inr (.inr ⟨payloadLength, src, Nat.le_refl _, fun more => rfl⟩)

/-- The decoder, which decides nothing too early. -/
def decoder (maxFrameLen : ℕ) : Decoder DecodeState UInt8 Bytes QuintetProtocolCodecError where
  decode := decode maxFrameLen
  weight := DecodeState.weight
  item_append {s src a s' rest} h more := by
    obtain ⟨rfl, hwait⟩ | ⟨e, hfail, -⟩ | ⟨payloadLength, rest', -, hdata⟩ := decode_cases maxFrameLen s src
    · rw [h] at hwait
      cases hwait
    · rw [h] at hfail
      cases hfail
    · have hnow := hdata []
      rw [List.append_nil, List.append_nil, h] at hnow
      obtain ⟨rfl, rfl, rfl⟩ := decodeData_item hnow.symm
      rw [hdata, List.append_assoc, decodeData_append]
  fail_append {s src e} h more := by
    obtain ⟨rfl, hwait⟩ | ⟨e, hfail, hmore⟩ | ⟨payloadLength, rest', -, hdata⟩ := decode_cases maxFrameLen s src
    · rw [h] at hwait
      cases hwait
    · rw [h] at hfail
      cases hfail
      exact hmore more
    · have hnow := hdata []
      rw [List.append_nil, List.append_nil, h] at hnow
      exact absurd hnow.symm decodeData_not_fail
  wait_append {s src s' rest} h more := by
    obtain ⟨rfl, hwait⟩ | ⟨e, hfail, -⟩ | ⟨payloadLength, rest', -, hdata⟩ := decode_cases maxFrameLen s src
    · rw [h] at hwait
      cases hwait
      rfl
    · rw [h] at hfail
      cases hfail
    · have hnow := hdata []
      rw [List.append_nil, List.append_nil, h] at hnow
      obtain ⟨rfl, rfl⟩ := decodeData_wait hnow.symm
      rw [hdata]
      rfl
  decreases {s src a s' rest} h := by
    obtain ⟨rfl, hwait⟩ | ⟨e, hfail, -⟩ | ⟨payloadLength, rest', hlength, hdata⟩ := decode_cases maxFrameLen s src
    · rw [h] at hwait
      cases hwait
    · rw [h] at hfail
      cases hfail
    · have hnow := hdata []
      rw [List.append_nil, List.append_nil, h] at hnow
      obtain ⟨rfl, rfl, rfl⟩ := decodeData_item hnow.symm
      rw [List.length_append] at hlength
      show rest.length + 0 < _
      omega
  wait_le {s src s' rest} h := by
    obtain ⟨rfl, hwait⟩ | ⟨e, hfail, -⟩ | ⟨payloadLength, rest', hlength, hdata⟩ := decode_cases maxFrameLen s src
    · rw [h] at hwait
      cases hwait
      exact Nat.le_refl _
    · rw [h] at hfail
      cases hfail
    · have hnow := hdata []
      rw [List.append_nil, List.append_nil, h] at hnow
      obtain ⟨rfl, rfl⟩ := decodeData_wait hnow.symm
      exact hlength

@[simp] theorem decoder_decode (maxFrameLen : ℕ) : (decoder maxFrameLen).decode = decode maxFrameLen := rfl

/-! ### The receiving task -/

/-- Why a stream is given up. -/
inductive Ending where
  /-- The decoder has found an error. -/
  | error (e : QuintetProtocolCodecError)
  /-- A frame has no id: the task panics. -/
  | panics
  deriving DecidableEq

/-- Take the id off a frame. -/
def decodeIncomingReliableMessage (msgBytes : Bytes) : Except Ending (ChannelId × Bytes) :=
  match msgBytes with
  | [] => .error .panics
  | channelId :: payload => .ok (channelId, payload)

/-- The decoder of messages with their channels. -/
def receiver : Decoder DecodeState UInt8 (ChannelId × Bytes) Ending :=
  (decoder DEFAULT_MAX_RELIABLE_FRAME_LEN).andThen decodeIncomingReliableMessage .error

/-- The messages that the task of a stream passes on when the bytes arrive in these pieces, and
whether it goes on. -/
def reliableStreamReceiverTask (pieces : List Bytes) :
    List (ChannelId × Bytes) × Except Ending (DecodeState × Bytes) :=
  receiver.readPieces (.ok (.Head, [])) pieces

/-! ### Frames -/

/-- A message as it stands in a stream. -/
def frame (msg : ChannelId × Bytes) : Bytes :=
  putUint (PROTOCOL_HEADER_LEN + msg.2.length) RELIABLE_FRAME_LENGTH_FIELD_LEN ++ msg.1 :: msg.2

theorem encode_eq (id : ChannelId) (maxFrameLen : ℕ) (payload dst : Bytes) :
    encode id maxFrameLen payload dst =
      if maxFrameLen < payload.length then .error .tooBig else .ok (dst ++ frame (id, payload)) := by
  simp [encode, frame]

/-- A channel task writes the frames of the messages that are not too long. -/
theorem written_eq (id : ChannelId) (maxFrameLen : ℕ) (msgs : List Bytes) (dst : Bytes) :
    written id maxFrameLen msgs dst =
      dst ++ ((msgs.filter fun msg => msg.length ≤ maxFrameLen).map fun msg => (id, msg)).flatMap frame := by
  induction msgs generalizing dst with
  | nil => exact (List.append_nil dst).symm
  | cons msg msgs ih =>
    rw [written, encode_eq]
    by_cases hlong : maxFrameLen < msg.length
    · rw [if_pos hlong, List.filter_cons_of_neg (by simpa using hlong)]
      exact ih dst
    · rw [if_neg hlong, List.filter_cons_of_pos (by simpa using hlong), List.map_cons, List.flatMap_cons,
        ← List.append_assoc]
      exact ih (dst ++ frame (id, msg))

/-- Of a frame the length is read as soon as the id is there; then the frame is waited for. -/
theorem decode_frame {maxFrameLen : ℕ} {msg : ChannelId × Bytes}
    (hlt : PROTOCOL_HEADER_LEN + msg.2.length < 256 ^ RELIABLE_FRAME_LENGTH_FIELD_LEN) (rest : Bytes) :
    decode maxFrameLen .Head (frame msg ++ rest) =
      if maxFrameLen < PROTOCOL_HEADER_LEN + msg.2.length then .fail .tooBig
      else .item (msg.1 :: msg.2) .Head rest := by
  have hhead := decodeHead_putUint maxFrameLen (List.cons_ne_nil msg.1 (msg.2 ++ rest)) hlt
  have hframe : frame msg ++ rest =
      putUint (PROTOCOL_HEADER_LEN + msg.2.length) RELIABLE_FRAME_LENGTH_FIELD_LEN ++ msg.1 :: (msg.2 ++ rest) := by
    rw [frame, List.append_assoc, List.cons_append]
  rw [decode, hframe, hhead]
  by_cases hlong : maxFrameLen < PROTOCOL_HEADER_LEN + msg.2.length
  · rw [if_pos hlong, if_pos hlong]
  · rw [if_neg hlong, if_neg hlong]
    have hlength : PROTOCOL_HEADER_LEN + msg.2.length = (msg.1 :: msg.2).length := by
      rw [List.length_cons, PROTOCOL_HEADER_LEN, CHANNEL_ID_LEN, Nat.add_comm]
    show decodeData _ ((msg.1 :: msg.2) ++ rest) = _
    rw [hlength]
    exact decodeData_append (msg.1 :: msg.2) rest

theorem length_frame_lt {msg : ChannelId × Bytes} (h : msg.2.length ≤ DEFAULT_MAX_RELIABLE_FRAME_LEN) :
    PROTOCOL_HEADER_LEN + msg.2.length < 256 ^ RELIABLE_FRAME_LENGTH_FIELD_LEN := by
  have hmax : PROTOCOL_HEADER_LEN + DEFAULT_MAX_RELIABLE_FRAME_LEN < 256 ^ RELIABLE_FRAME_LENGTH_FIELD_LEN := by decide
  omega

/-- What is read of a stream was a frame in it. -/
theorem decode_item {maxFrameLen : ℕ} {bytes payload rest : Bytes} {s : DecodeState}
    (h : decode maxFrameLen .Head bytes = .item payload s rest) :
    s = .Head ∧ payload.length ≤ maxFrameLen ∧
      bytes = putUint payload.length RELIABLE_FRAME_LENGTH_FIELD_LEN ++ payload ++ rest := by
  rw [decode] at h
  split at h
  · next payloadLength src hhead =>
    obtain ⟨hle, -, rfl⟩ := decodeHead_some hhead
    obtain ⟨rfl, rfl, rfl⟩ := decodeData_item h
    exact ⟨rfl, hle, (List.append_assoc _ _ _).symm⟩
  · cases h
  · cases h

/-- **What the receiving task makes a message of**: a frame with an id, of a message that is shorter
than the largest frame. -/
theorem receiver_decodes :
    receiver.Decodes .Head frame fun msg => msg.2.length < DEFAULT_MAX_RELIABLE_FRAME_LEN := by
  intro bytes msg s rest
  rw [receiver, Decoder.andThen_decode_eq_item]
  constructor
  · rintro ⟨msgBytes, hdecode, hmessage⟩
    obtain ⟨rfl, hle, rfl⟩ := decode_item hdecode
    rcases msgBytes with _ | ⟨channelId, payload⟩
    · cases hmessage
    · cases hmessage
      exact ⟨rfl, hle, by rw [frame, List.length_cons, PROTOCOL_HEADER_LEN, CHANNEL_ID_LEN, Nat.add_comm]⟩
  · rintro ⟨rfl, hlength, rfl⟩
    refine ⟨msg.1 :: msg.2, ?_, rfl⟩
    have hshort : ¬ DEFAULT_MAX_RELIABLE_FRAME_LEN < PROTOCOL_HEADER_LEN + msg.2.length := by
      rw [PROTOCOL_HEADER_LEN, CHANNEL_ID_LEN]
      omega
    rw [decoder_decode, decode_frame (length_frame_lt (Nat.le_of_lt hlength)), if_neg hshort]

theorem readAll_nil : receiver.readAll .Head [] = ([], .ok (.Head, [])) := Decoder.readAll_wait rfl

/-- A message that is as long as the largest frame ends the stream for its receiver. -/
theorem receiver_decode_longest {msg : ChannelId × Bytes} (h : msg.2.length = DEFAULT_MAX_RELIABLE_FRAME_LEN) (rest : Bytes) :
    receiver.decode .Head (frame msg ++ rest) = .fail (.error .tooBig) := by
  have hlong : DEFAULT_MAX_RELIABLE_FRAME_LEN < PROTOCOL_HEADER_LEN + msg.2.length := by
    rw [PROTOCOL_HEADER_LEN, CHANNEL_ID_LEN, h]
    omega
  refine Decoder.andThen_decode_fail ?_
  rw [decoder_decode, decode_frame (length_frame_lt (Nat.le_of_eq h)), if_pos hlong]

/-! ### From one end to the other -/

/-- The messages that arrive of those that a channel is given: all that are not too long to be
written, up to the first one that is too long to be read. -/
def arriving (msgs : List Bytes) : List Bytes :=
  (msgs.filter fun msg => msg.length ≤ DEFAULT_MAX_RELIABLE_FRAME_LEN).takeWhile fun msg =>
    msg.length < DEFAULT_MAX_RELIABLE_FRAME_LEN

/-- What is read of all that a channel has written. -/
theorem readAll_written (id : ChannelId) (msgs : List Bytes) :
    (receiver.readAll .Head (written id DEFAULT_MAX_RELIABLE_FRAME_LEN msgs [])).1 =
      (arriving msgs).map fun msg => (id, msg) := by
  rw [written_eq, List.nil_append, arriving]
  generalize hfit : msgs.filter (fun msg => msg.length ≤ DEFAULT_MAX_RELIABLE_FRAME_LEN) = fit
  have hle : ∀ msg ∈ fit, msg.length ≤ DEFAULT_MAX_RELIABLE_FRAME_LEN := by
    intro msg hmsg
    rw [← hfit, List.mem_filter] at hmsg
    exact of_decide_eq_true hmsg.2
  clear hfit
  induction fit with
  | nil => exact congrArg Prod.fst readAll_nil
  | cons msg fit ih =>
    have hmsg := hle msg List.mem_cons_self
    rw [List.map_cons, List.flatMap_cons]
    by_cases hlt : msg.length < DEFAULT_MAX_RELIABLE_FRAME_LEN
    · rw [Decoder.readAll_item ((receiver_decodes _ _ _ _).mpr ⟨rfl, hlt, rfl⟩), List.takeWhile_cons_of_pos (by simpa using hlt)]
      rw [List.map_cons, ih fun msg h => hle msg (List.mem_cons_of_mem _ h)]
    · rw [Decoder.readAll_fail (receiver_decode_longest (by dsimp only; omega) _), List.takeWhile_cons_of_neg (by simpa using hlt)]
      rfl

/-- **The messages that are read** of any bytes in any pieces are those that the bytes start with;
and if the bytes are those that a channel has written for some messages, they are these messages
but for those that are too long, up to the first one that has the largest length. -/
theorem reliableStreamReceiverTask_spec (pieces : List Bytes) :
    (∀ msgs, msgs <+: (reliableStreamReceiverTask pieces).1 ↔
      (∀ msg ∈ msgs, msg.2.length < DEFAULT_MAX_RELIABLE_FRAME_LEN) ∧ msgs.flatMap frame <+: pieces.flatten) ∧
    ∀ id msgs, pieces.flatten = written id DEFAULT_MAX_RELIABLE_FRAME_LEN msgs [] →
      (reliableStreamReceiverTask pieces).1 = (arriving msgs).map fun msg => (id, msg) := by
  have hread : (reliableStreamReceiverTask pieces).1 = (receiver.readAll .Head pieces.flatten).1 := by
    rw [reliableStreamReceiverTask, Decoder.readPieces_eq rfl]
    rfl
  constructor
  · intro msgs
    rw [hread]
    exact receiver_decodes.prefix_readAll_iff _ _
  · intro id msgs hwritten
    rw [hread, hwritten, readAll_written]

end Distgard.Quintet
