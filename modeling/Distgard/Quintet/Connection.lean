import Distgard.Quintet.Endpoint

/-!
# The connection of a client

A client opens the channels of its configuration when it opens a connection, and again when it connects
once more; it can open others, and close them. It asks for their tasks by the same requests as the
server, but there is nobody yet to take the first ones.

## The model

What a connection has in common with one of the server is taken from there. A connection is told by its tasks
what has become of it. `bytesFromServer` is what has been read and not received.

## What is proved

* `connection_ids` — in every run, also if opening or closing a channel has failed, an id of the first 255 is
  available if and only if its channel is not open; and the default channel is open.
* `configured_channels_agree` — a configuration can be opened by a client if and only if it has at most 100
  channels, and by a server if and only if it has at most 255. Then their ids are the places in the
  configuration at both ends, and at the server's for each client.
* `reconnect_spec` — whatever has happened to a connection, if there is none the channels of its configuration,
  and no others, can be opened again.
-/

namespace Distgard.Quintet

open Lib

/-- Whether there is a connection. -/
inductive ConnectionState where
  /-- There may be one soon. -/
  | Connecting
  /-- There is one. -/
  | Connected
  /-- There is none. -/
  | Disconnected
  deriving DecidableEq

/-- A connection to a server. -/
structure Connection extends ClientConnection where
  /-- Whether there is one. -/
  state : ConnectionState
  /-- The channels that are opened first. -/
  channelsConfig : ChannelsConfiguration
  /-- The ids that can be given to channels. -/
  availableChannelIds : ChannelId → Bool
  /-- The channel that is used if none is named. -/
  defaultChannel : Option ChannelId
  /-- What has been read and not received. -/
  bytesFromServer : List (ChannelId × Bytes)
  /-- How many messages have been received. -/
  receivedMessagesCount : ℕ

namespace Connection

/-- A connection without channels. -/
def new (channelsConfig : ChannelsConfiguration) : Connection where
  toClientConnection := .new
  state := .Connecting
  channelsConfig := channelsConfig
  availableChannelIds id := id.toNat < 255
  defaultChannel := none
  bytesFromServer := []
  receivedMessagesCount := 0

/-- Ask for the task of a channel. -/
def createChannel (c : Connection) (id : ChannelId) (channelType : ChannelType) : Connection × Except QuintetError Unit :=
  let created := c.toClientConnection.createChannel id channelType
  ({ c with toClientConnection := created.1 }, created.2)

/-- Open a channel. -/
def openChannel (c : Connection) (channelType : ChannelType) : Connection × Except QuintetError ChannelId :=
  match Endpoint.popFirst c.availableChannelIds with
  | none => (c, .error .MaxChannelsCountReached)
  | some id =>
    let c := { c with availableChannelIds := Function.update c.availableChannelIds id false }
    match c.createChannel id channelType with
    | (c, .ok ()) => ({ c with defaultChannel := c.defaultChannel <|> some id }, .ok id)
    | (c, .error err) =>
      ({ c with availableChannelIds := Function.update c.availableChannelIds id true }, .error err)

/-- Close a channel: its id is available again even if its task has ended already. -/
def closeChannel (c : Connection) (id : ChannelId) : Connection × Except QuintetError Unit :=
  match c.channels[id.toNat]? with
  | some (some channel) =>
    ({ c with
      channels := c.channels.set id.toNat none
      defaultChannel := if some id = c.defaultChannel then none else c.defaultChannel
      availableChannelIds := Function.update c.availableChannelIds id true }, channel.close)
  | some none => (c, .error .ChannelClosed)
  | none => (c, .error (.UnknownChannel id))

/-- Open the channels of a configuration, up to the first one that cannot be opened. -/
def openConfiguredChannels (c : Connection) : List ChannelType → Connection × Except QuintetError Unit
  | [] => (c, .ok ())
  | channelType :: rest =>
    match c.openChannel channelType with
    | (c, .ok _) => openConfiguredChannels c rest
    | (c, .error err) => (c, .error err)

/-- Send a message on a channel. -/
def sendPayloadOn (c : Connection) (id : ChannelId) (payload : Bytes) : Connection × Except QuintetError Unit :=
  if c.state = .Disconnected then
    (c, .error .ConnectionClosed)
  else
    let sent := c.toClientConnection.sendPayload payload id
    ({ c with toClientConnection := sent.1 }, sent.2)

/-- Receive a message, if there is one; `reading` is whether one may still be read. -/
def receivePayload (c : Connection) (reading : Bool) : Connection × Except QuintetError (Option (ChannelId × Bytes)) :=
  if c.state = .Disconnected then
    (c, .error .ConnectionClosed)
  else
    match c.bytesFromServer with
    | msg :: rest =>
      ({ c with bytesFromServer := rest, receivedMessagesCount := c.receivedMessagesCount + 1 }, .ok (some msg))
    | [] => (c, if reading then .ok none else .error .InternalChannelClosed)

/-- Disconnect. -/
def disconnect (c : Connection) : Connection × Except QuintetError Unit :=
  if c.state = .Disconnected then
    (c, .ok ())
  else
    ({ c with state := .Disconnected }, if c.gone then .error .ConnectionAlreadyClosed else .ok ())

/-- Connect again, if there is no connection. -/
def reconnect (c : Connection) : Connection × Except QuintetError Unit :=
  if c.state = .Disconnected then
    (Connection.new c.channelsConfig).openConfiguredChannels c.channelsConfig.channels
  else
    (c, .ok ())

/-- Open a connection. -/
def openConnection (channelsConfig : ChannelsConfiguration) : Except QuintetError Connection :=
  match (new channelsConfig).openConfiguredChannels channelsConfig.channels with
  | (c, .ok ()) => .ok c
  | (_, .error err) => .error err

/-- What the tasks of a connection tell it. -/
inductive ClientAsyncMessage where
  /-- There is a connection. -/
  | Connected
  /-- There will be none. -/
  | ConnectionFailed
  /-- There is none any more. -/
  | ConnectionClosed
  /-- A channel has found that there is none. -/
  | LostConnection

/-- Handle a message. -/
def handleMessage (c : Connection) : ClientAsyncMessage → Connection
  | .Connected => { c with state := .Connected }
  | .ConnectionFailed => { c with state := .Disconnected }
  | .ConnectionClosed => c.disconnect.1
  | .LostConnection => c.disconnect.1

/-! ### Runs -/

/-- What happens to a connection. -/
inductive Event where
  /-- A channel is opened. -/
  | openChannel (channelType : ChannelType)
  /-- A channel is closed. -/
  | closeChannel (id : ChannelId)
  /-- Another channel is to be used if none is named. -/
  | setDefaultChannel (id : ChannelId)
  /-- A message is sent. -/
  | send (id : ChannelId) (payload : Bytes)
  /-- A message is read. -/
  | read (msg : ChannelId × Bytes)
  /-- A message is received. -/
  | receive (reading : Bool)
  /-- The connection is given up. -/
  | disconnect
  /-- It connects again. -/
  | reconnect
  /-- A message of its tasks is handled. -/
  | handle (message : ClientAsyncMessage)
  /-- A task has done something. -/
  | change (change : ClientConnection.Change)

/-- The channel that is to be used must be open. -/
def Allowed (c : Connection) : Event → Prop
  | .setDefaultChannel id => c.channel id ≠ none
  | _ => True

/-- What an event does. -/
def step (c : Connection) : Event → Connection
  | .openChannel channelType => (c.openChannel channelType).1
  | .closeChannel id => (c.closeChannel id).1
  | .setDefaultChannel id => { c with defaultChannel := some id }
  | .send id payload => (c.sendPayloadOn id payload).1
  | .read msg => { c with bytesFromServer := c.bytesFromServer ++ [msg] }
  | .receive reading => (c.receivePayload reading).1
  | .disconnect => c.disconnect.1
  | .reconnect => c.reconnect.1
  | .handle message => c.handleMessage message
  | .change change => { c with toClientConnection := c.toClientConnection.change change }

/-- The states of the runs of a connection that was opened. -/
abbrev Reachable : Connection → Prop :=
  Reached (fun c => ∃ config, openConnection config = .ok c) Allowed fun c event c' => c.step event = c'

/-- What holds of the ids in every run. -/
structure Ids (c : Connection) : Prop where
  /-- An id is available if its channel is not open. -/
  available : ∀ id, c.availableChannelIds id = true ↔ id.toNat < 255 ∧ c.typeOf id = none
  /-- An open channel has one of the first 255 ids. -/
  small : ∀ id, c.typeOf id ≠ none → id.toNat < 255
  /-- The default channel is open. -/
  default : ∀ id, c.defaultChannel = some id → c.typeOf id ≠ none

variable {c c' : Connection} {id : ChannelId}

theorem ids_new (config : ChannelsConfiguration) : Ids (new config) where
  available _ := by simp [new, ClientConnection.typeOf, ClientConnection.channel, ClientConnection.new]
  small _ h := (h rfl).elim
  default _ h := nomatch h

/-- What is done to the connection may leave the types of its channels. -/
theorem Ids.of_types (h : Ids c) (htypes : ∀ id, c'.typeOf id = c.typeOf id)
    (havailable : c'.availableChannelIds = c.availableChannelIds) (hdefault : c'.defaultChannel = c.defaultChannel) :
    Ids c' where
  available id := by
    rw [havailable, htypes]
    exact h.available id
  small id := by
    rw [htypes]
    exact h.small id
  default id := by
    rw [hdefault, htypes]
    exact h.default id

theorem typeOf_eq_none_iff {c : ClientConnection} : c.typeOf id = none ↔ c.channel id = none := Option.map_eq_none_iff

theorem ids_openChannel (h : Ids c) (channelType : ChannelType) : Ids (c.openChannel channelType).1 := by
  unfold openChannel
  split
  · exact h
  · next id hpop =>
    obtain ⟨hsmall, hclosed⟩ := (h.available id).mp (Endpoint.popFirst_some hpop)
    have hothers : ∀ id', id' ≠ id → (c.toClientConnection.createChannel id channelType).1.typeOf id' = c.typeOf id' :=
      fun id' hne => congrArg (Option.map _) (ClientConnection.channel_createChannel_of_ne _ channelType hne)
    unfold createChannel
    dsimp only
    rcases hcreated : c.toClientConnection.createChannel id channelType with ⟨c₁, err | u⟩
    · rw [hcreated] at hothers
      have hsame := ClientConnection.createChannel_error_same hcreated
      subst hsame
      dsimp only
      rw [Function.update_idem]
      refine h.of_types (fun _ => rfl) ?_ rfl
      dsimp only
      rw [← (h.available id).mpr ⟨hsmall, hclosed⟩, Function.update_eq_self]
    · rw [hcreated] at hothers
      have hopen : c₁.typeOf id ≠ none := by
        unfold ClientConnection.typeOf
        rw [(ClientConnection.createChannel_ok hcreated).1]
        exact Option.some_ne_none _
      dsimp only
      refine ⟨fun id' => ?_, fun id' h' => ?_, fun id' h' => ?_⟩
      · dsimp only
        rw [Function.update_apply]
        by_cases hid : id' = id
        · rw [if_pos hid, hid]
          exact ⟨fun h' => (nomatch h'), fun h' => (hopen h'.2).elim⟩
        · rw [if_neg hid, hothers id' hid]
          exact h.available id'
      · dsimp only at h'
        by_cases hid : id' = id
        · exact hid ▸ hsmall
        · rw [hothers id' hid] at h'
          exact h.small id' h'
      · dsimp only at h' ⊢
        by_cases hid : id' = id
        · exact hid ▸ hopen
        · rw [hothers id' hid]
          cases hdefault : c.defaultChannel with
          | none =>
            rw [hdefault] at h'
            exact (hid (Option.some.inj h').symm).elim
          | some id'' =>
            rw [hdefault] at h'
            exact h.default id' (hdefault.trans h')

theorem ids_closeChannel (h : Ids c) (id : ChannelId) : Ids (c.closeChannel id).1 := by
  have hself := ClientConnection.channel_closeChannel_self c.toClientConnection id
  have hothers : ∀ id', id' ≠ id → (c.toClientConnection.closeChannel id).1.typeOf id' = c.typeOf id' :=
    fun id' hne => congrArg (Option.map _) (ClientConnection.channel_closeChannel_of_ne _ hne)
  unfold closeChannel
  unfold ClientConnection.closeChannel at hself hothers
  split
  · next channel hchannel =>
    rw [hchannel] at hself hothers
    have hopen : c.typeOf id ≠ none := by
      unfold ClientConnection.typeOf ClientConnection.channel
      rw [hchannel]
      exact Option.some_ne_none _
    have hclosed := typeOf_eq_none_iff.mpr hself
    refine ⟨fun id' => ?_, fun id' h' => ?_, fun id' h' => ?_⟩
    · dsimp only
      rw [Function.update_apply]
      by_cases hid : id' = id
      · rw [if_pos hid, hid]
        exact ⟨fun _ => ⟨h.small id hopen, hclosed⟩, fun _ => rfl⟩
      · rw [if_neg hid]
        have hsame := hothers id' hid
        rw [h.available id', ← hsame]
    · by_cases hid : id' = id
      · exact hid ▸ h.small id hopen
      · exact h.small id' fun hnone => h' ((hothers id' hid).trans hnone)
    · dsimp only at h'
      split at h'
      · cases h'
      · next hne =>
        have hid : id' ≠ id := by
          rintro rfl
          exact hne h'.symm
        exact fun hnone => h.default id' h' ((hothers id' hid).symm.trans hnone)
  · exact h
  · exact h

theorem ids_openConfiguredChannels (h : Ids c) (types : List ChannelType) : Ids (c.openConfiguredChannels types).1 := by
  induction types generalizing c with
  | nil => exact h
  | cons channelType rest ih =>
    have hopened := ids_openChannel h channelType
    rw [openConfiguredChannels]
    split
    · next heq =>
      rw [heq] at hopened
      exact ih hopened
    · next heq =>
      rw [heq] at hopened
      exact hopened

theorem ids_disconnect (h : Ids c) : Ids c.disconnect.1 := by
  unfold disconnect
  split
  · exact h
  · exact h.of_types (fun _ => rfl) rfl rfl

/-- **Every event keeps what holds of the ids.** -/
theorem ids_step (h : Ids c) {event : Event} (hallowed : c.Allowed event) : Ids (c.step event) := by
  cases event with
  | openChannel channelType => exact ids_openChannel h channelType
  | closeChannel id => exact ids_closeChannel h id
  | setDefaultChannel id =>
    refine ⟨h.available, h.small, fun id' h' => ?_⟩
    cases h'
    exact fun hnone => hallowed (typeOf_eq_none_iff.mp hnone)
  | send id payload =>
    show Ids (c.sendPayloadOn id payload).1
    unfold sendPayloadOn
    split
    · exact h
    · exact h.of_types (ClientConnection.typeOf_sendPayload payload id c.toClientConnection) rfl rfl
  | read msg => exact h.of_types (fun _ => rfl) rfl rfl
  | receive reading =>
    show Ids (c.receivePayload reading).1
    unfold receivePayload
    split
    · exact h
    · split
      · exact h.of_types (fun _ => rfl) rfl rfl
      · exact h
  | disconnect => exact ids_disconnect h
  | reconnect =>
    show Ids c.reconnect.1
    unfold reconnect
    split
    · exact ids_openConfiguredChannels (ids_new c.channelsConfig) _
    · exact h
  | handle message =>
    cases message with
    | Connected => exact h.of_types (fun _ => rfl) rfl rfl
    | ConnectionFailed => exact h.of_types (fun _ => rfl) rfl rfl
    | ConnectionClosed => exact ids_disconnect h
    | LostConnection => exact ids_disconnect h
  | change change => exact h.of_types (ClientConnection.typeOf_change c.toClientConnection change) rfl rfl

theorem openConnection_eq {config : ChannelsConfiguration} (h : openConnection config = .ok c) :
    (new config).openConfiguredChannels config.channels = (c, .ok ()) := by
  unfold openConnection at h
  split at h
  · next heq =>
    cases h
    exact heq
  · cases h

/-- **The ids of a connection**, in every run: one of the first 255 is available if and only if its
channel is not open, whatever has failed; there are no others; and the default channel is open. -/
theorem connection_ids (h : Reachable c) :
    (∀ id, c.availableChannelIds id = true ↔ id.toNat < 255 ∧ c.channel id = none) ∧
    (∀ id, c.channel id ≠ none → id.toNat < 255) ∧
    ∀ id, c.defaultChannel = some id → c.channel id ≠ none := by
  have hids : Ids c := by
    refine h.invariant ?_ fun c c' event hinv hallowed hhappens => ?_
    · rintro c ⟨config, hopen⟩
      have hnew := ids_openConfiguredChannels (ids_new config) config.channels
      rw [openConnection_eq hopen] at hnew
      exact hnew
    · rw [← hhappens]
      exact ids_step hinv hallowed
  refine ⟨fun id => ?_, fun id hopen => ?_, fun id hdefault hnone => ?_⟩
  · rw [hids.available, typeOf_eq_none_iff]
  · exact hids.small id fun hnone => hopen (typeOf_eq_none_iff.mp hnone)
  · exact hids.default id hdefault (typeOf_eq_none_iff.mpr hnone)

/-- The channels of the game. -/
def gameChannels : ChannelsConfiguration := ⟨[.Unreliable, .Unreliable, .OrderedReliable, .OrderedReliable]⟩

/-- The client of the game, which has opened one more channel, closed another and been disconnected. -/
def gameClient : Connection :=
  (((((new gameChannels).openConfiguredChannels gameChannels.channels).1.step (.openChannel .Unreliable)).step
    (.closeChannel 1)).step (.handle .Connected)).step (.handle .LostConnection)

theorem reachable_gameClient : Reachable gameClient :=
  .step (.handle .LostConnection)
    (.step (.handle .Connected)
      (.step (.closeChannel 1) (.step (.openChannel .Unreliable) (.start ⟨gameChannels, rfl⟩) trivial rfl) trivial rfl)
      trivial rfl)
    trivial rfl

theorem connection_ids_gameClient :
    gameClient.availableChannelIds 1 = true ∧ (gameClient.availableChannelIds 4 = true ↔
      (4 : ChannelId).toNat < 255 ∧ gameClient.channel 4 = none) :=
  ⟨by decide, (connection_ids reachable_gameClient).1 4⟩

end Connection

/-! ### Configurations -/

/-- The ids from some number on. -/
def idsFrom (n : ℕ) (id : ChannelId) : Bool := n ≤ id.toNat && id.toNat < 255

theorem toNat_ofNat_of_le {n : ℕ} (hn : n ≤ 255) : (UInt8.ofNat n).toNat = n := by
  rw [UInt8.toNat_ofNat']
  exact Nat.mod_eq_of_lt (by omega)

/-- The least of them is the first. -/
theorem popFirst_idsFrom {n : ℕ} (hn : n < 255) : Endpoint.popFirst (idsFrom n) = some (UInt8.ofNat n) := by
  unfold Endpoint.popFirst
  rw [List.find?_map]
  have hfind : (List.range 256).find? (idsFrom n ∘ UInt8.ofNat) = some n := by
    rw [List.find?_range_eq_some]
    refine ⟨?_, List.mem_range.mpr (by omega), fun j hj => ?_⟩
    · simp [idsFrom, toNat_ofNat_of_le (Nat.le_of_lt hn), hn]
    · have hlt : ¬ n ≤ j := Nat.not_le.mpr hj
      simp [idsFrom, toNat_ofNat_of_le (n := j) (by omega), hlt]
  rw [hfind]
  rfl

theorem popFirst_idsFrom_last : Endpoint.popFirst (idsFrom 255) = none := by
  rw [Server.popFirst_eq_none]
  intro id
  simp [idsFrom]

/-- When the first is taken, those after it are left. -/
theorem update_idsFrom (n : ℕ) (hn : n < 255) : Function.update (idsFrom n) (UInt8.ofNat n) false = idsFrom (n + 1) := by
  funext id
  rw [Function.update_apply]
  have htoNat := toNat_ofNat_of_le (Nat.le_of_lt hn)
  by_cases hid : id = UInt8.ofNat n
  · rw [if_pos hid, hid]
    simp [idsFrom, htoNat]
  · rw [if_neg hid]
    have hne : id.toNat ≠ n := fun heq => hid (UInt8.toNat_inj.mp (heq.trans htoNat.symm))
    unfold idsFrom
    congr 1
    rw [decide_eq_decide]
    omega

theorem idsFrom_zero (config : ChannelsConfiguration) : (Connection.new config).availableChannelIds = idsFrom 0 := by
  funext id
  simp [Connection.new, idsFrom]

namespace Connection

/-- A connection of which just these channels have been opened, and no task has been asked for. -/
structure Opening (c : Connection) (done : List ChannelType) : Prop where
  /-- Their ids are their places. -/
  types : ∀ id : ChannelId, c.typeOf id = done[id.toNat]?
  /-- The next ids are available. -/
  available : c.availableChannelIds = idsFrom done.length
  /-- The requests wait. -/
  requests : c.toChannels = done.length
  /-- They can be made. -/
  willing : c.refuses = false

variable {c : Connection} {done : List ChannelType}

theorem opening_new (config : ChannelsConfiguration) : Opening (new config) [] where
  types id := by simp [new, ClientConnection.typeOf, ClientConnection.channel, ClientConnection.new]
  available := idsFrom_zero config
  requests := rfl
  willing := rfl

/-- The next channel gets the next id, if there is room for the request. -/
theorem opening_openChannel (h : Opening c done) (hroom : done.length < DEFAULT_INTERNAL_MESSAGE_CHANNEL_SIZE)
    (channelType : ChannelType) :
    ∃ c' id, c.openChannel channelType = (c', .ok id) ∧ Opening c' (done ++ [channelType]) := by
  have hsmall : done.length < 255 := Nat.lt_trans hroom (by decide)
  have hok := (ClientConnection.createChannel_ok_iff c.toClientConnection (UInt8.ofNat done.length) channelType).mpr
    ⟨h.willing, by rw [h.requests]; exact hroom⟩
  rcases hcreated : c.toClientConnection.createChannel (UInt8.ofNat done.length) channelType with ⟨c₁, err | u⟩
  · rw [hcreated] at hok
    cases hok
  · obtain ⟨hchannel, hrequests, hwilling⟩ := ClientConnection.createChannel_ok hcreated
    have hothers : ∀ id, id ≠ UInt8.ofNat done.length → c₁.channel id = c.channel id := by
      intro id hne
      have hsame := ClientConnection.channel_createChannel_of_ne c.toClientConnection channelType hne
      rw [hcreated] at hsame
      exact hsame
    unfold openChannel
    rw [h.available, popFirst_idsFrom hsmall]
    unfold createChannel
    dsimp only
    rw [hcreated, update_idsFrom _ hsmall]
    refine ⟨_, _, rfl, fun id => ?_, ?_, ?_, ?_⟩
    · show c₁.typeOf id = _
      unfold ClientConnection.typeOf
      by_cases hid : id = UInt8.ofNat done.length
      · rw [hid, hchannel, toNat_ofNat_of_le (Nat.le_of_lt hsmall), List.getElem?_concat_length]
        rfl
      · have hne : id.toNat ≠ done.length :=
          fun heq => hid (UInt8.toNat_inj.mp (heq.trans (toNat_ofNat_of_le (Nat.le_of_lt hsmall)).symm))
        have htypes := h.types id
        unfold ClientConnection.typeOf at htypes
        rw [hothers id hid, htypes]
        rcases Nat.lt_or_ge id.toNat done.length with hlt | hge
        · rw [List.getElem?_append_left hlt]
        · rw [List.getElem?_eq_none hge, List.getElem?_eq_none]
          rw [List.length_append, List.length_singleton]
          omega
    · rw [List.length_append, List.length_singleton]
    · rw [List.length_append, List.length_singleton, hrequests, h.requests]
    · exact hwilling.trans h.willing

theorem opening_full (h : Opening c done) (hfull : done.length = DEFAULT_INTERNAL_MESSAGE_CHANNEL_SIZE)
    (channelType : ChannelType) : (c.openChannel channelType).2 = .error .FullQueue := by
  have hsmall : done.length < 255 := by
    rw [hfull]
    decide
  have hcreated : ∀ id, c.toClientConnection.createChannel id channelType = (c.toClientConnection, .error .FullQueue) := by
    intro id
    unfold ClientConnection.createChannel
    rw [if_neg (by rw [h.willing]; exact Bool.false_ne_true), if_pos (by rw [h.requests, hfull])]
  unfold openChannel
  rw [h.available, popFirst_idsFrom hsmall]
  unfold createChannel
  dsimp only
  rw [hcreated]

/-- Channels are opened as long as there is room for the requests. -/
theorem opening_openConfiguredChannels (h : Opening c done) (hroom : done.length ≤ DEFAULT_INTERNAL_MESSAGE_CHANNEL_SIZE)
    (types : List ChannelType) :
    (∃ c', c.openConfiguredChannels types = (c', .ok ()) ∧ Opening c' (done ++ types) ∧
      (done ++ types).length ≤ DEFAULT_INTERNAL_MESSAGE_CHANNEL_SIZE) ∨
    ((c.openConfiguredChannels types).2 = .error .FullQueue ∧
      DEFAULT_INTERNAL_MESSAGE_CHANNEL_SIZE < (done ++ types).length) := by
  induction types generalizing c done with
  | nil => exact .inl ⟨c, rfl, by rwa [List.append_nil], by rwa [List.append_nil]⟩
  | cons channelType rest ih =>
    rw [openConfiguredChannels]
    rcases Nat.lt_or_eq_of_le hroom with hlt | hfull
    · obtain ⟨c', id, hopened, hopening⟩ := opening_openChannel h hlt channelType
      rw [hopened]
      dsimp only
      rw [List.append_cons]
      exact ih hopening (by rw [List.length_append, List.length_singleton]; exact hlt)
    · have herr := opening_full h hfull channelType
      refine .inr ⟨?_, ?_⟩
      · rcases hopened : c.openChannel channelType with ⟨c', err | id⟩
        · rw [hopened] at herr
          cases herr
          rfl
        · rw [hopened] at herr
          cases herr
      · rw [List.length_append, List.length_cons]
        omega

/-- **A client opens** the channels of a configuration if there are at most 100. -/
theorem openConnection_spec (config : ChannelsConfiguration) :
    (∃ c, openConnection config = .ok c ∧ Opening c config.channels ∧
      config.channels.length ≤ DEFAULT_INTERNAL_MESSAGE_CHANNEL_SIZE) ∨
    (openConnection config = .error .FullQueue ∧ DEFAULT_INTERNAL_MESSAGE_CHANNEL_SIZE < config.channels.length) := by
  unfold openConnection
  rcases opening_openConfiguredChannels (opening_new config) (Nat.zero_le _) config.channels with
    ⟨c, hopened, hopening, hle⟩ | ⟨herr, hlt⟩
  · exact .inl ⟨c, by rw [hopened], hopening, hle⟩
  · rcases hopened : (new config).openConfiguredChannels config.channels with ⟨c, err | u⟩
    · rw [hopened] at herr
      cases herr
      exact .inr ⟨rfl, hlt⟩
    · rw [hopened] at herr
      cases herr

end Connection

namespace Endpoint

/-- Open channels, up to the first one that cannot be opened. -/
def openChannels (e : Endpoint) : List ChannelType → Except QuintetError Endpoint
  | [] => .ok e
  | channelType :: rest =>
    match e.openChannel channelType with
    | (e, .ok _) => openChannels e rest
    | (_, .error err) => .error err

/-- Start an endpoint with the channels of a configuration. -/
def startEndpoint (config : ChannelsConfiguration) : Except QuintetError Endpoint := openChannels .new config.channels

/-- An endpoint of which just these channels have been opened, and to which nobody has connected. -/
structure Opening (e : Endpoint) (done : List ChannelType) : Prop where
  /-- Their ids are their places. -/
  types : ∀ id channelType, (id, channelType) ∈ e.openedChannels ↔ done[id.toNat]? = some channelType
  /-- Each is open once. -/
  nodup : (e.openedChannels.map Prod.fst).Nodup
  /-- There are as many. -/
  length : e.openedChannels.length = done.length
  /-- The next ids are available. -/
  available : e.availableChannelIds = idsFrom done.length
  /-- Nobody has connected. -/
  alone : e.clients = []

variable {e : Endpoint} {done : List ChannelType}

theorem opening_new : Opening .new [] where
  types _ _ := by simp [new]
  nodup := List.nodup_nil
  length := rfl
  available := by
    funext id
    simp [new, idsFrom]
  alone := rfl

/-- The next channel gets the next id, if there is one. -/
theorem opening_openChannel (h : Opening e done) (hsmall : done.length < 255) (channelType : ChannelType) :
    ∃ e' id, e.openChannel channelType = (e', .ok id) ∧ Opening e' (done ++ [channelType]) := by
  have htoNat := toNat_ofNat_of_le (Nat.le_of_lt hsmall)
  have hfresh : ∀ p ∈ e.openedChannels, p.1 ≠ UInt8.ofNat done.length := by
    rintro ⟨id, channelType⟩ hp rfl
    have hget := (h.types _ _).mp hp
    rw [htoNat, List.getElem?_eq_none (Nat.le_refl _)] at hget
    cases hget
  have hfilter : e.openedChannels.filter (fun p => p.1 ≠ UInt8.ofNat done.length) = e.openedChannels :=
    List.filter_eq_self.mpr fun p hp => decide_eq_true (hfresh p hp)
  unfold openChannel
  rw [h.available, popFirst_idsFrom hsmall]
  unfold createChannel
  dsimp only
  rw [h.alone, update_idsFrom _ hsmall, hfilter]
  refine ⟨_, _, rfl, fun id channelType' => ?_, ?_, ?_, ?_, rfl⟩
  · dsimp only
    rw [List.mem_cons, Prod.mk.injEq, h.types, List.getElem?_append]
    split
    · next hlt =>
      refine or_iff_right fun heq => ?_
      rw [heq.1, htoNat] at hlt
      exact Nat.lt_irrefl _ hlt
    · next hge =>
      rw [List.getElem?_eq_none (Nat.le_of_not_lt hge), List.getElem?_singleton]
      by_cases hid : id = UInt8.ofNat done.length
      · rw [hid, htoNat, Nat.sub_self]
        simp [eq_comm]
      · have hne : id.toNat - done.length ≠ 0 := by
          intro hzero
          have heq : id.toNat = done.length := by omega
          exact hid (UInt8.toNat_inj.mp (heq.trans htoNat.symm))
        simp [hid, hne]
  · refine List.nodup_cons.mpr ⟨fun hmem => ?_, h.nodup⟩
    obtain ⟨p, hp, heq⟩ := List.mem_map.mp hmem
    exact hfresh p hp heq
  · rw [List.length_cons, h.length, List.length_append, List.length_singleton]
  · rw [List.length_append, List.length_singleton]

/-- Channels are opened as long as there are ids. -/
theorem opening_openChannels (h : Opening e done) (hroom : done.length ≤ 255) (types : List ChannelType) :
    (∃ e', e.openChannels types = .ok e' ∧ Opening e' (done ++ types) ∧ (done ++ types).length ≤ 255) ∨
    (e.openChannels types = .error .MaxChannelsCountReached ∧ 255 < (done ++ types).length) := by
  induction types generalizing e done with
  | nil => exact .inl ⟨e, rfl, by rwa [List.append_nil], by rwa [List.append_nil]⟩
  | cons channelType rest ih =>
    rw [openChannels]
    rcases Nat.lt_or_eq_of_le hroom with hlt | hfull
    · obtain ⟨e', id, hopened, hopening⟩ := opening_openChannel h hlt channelType
      rw [hopened]
      dsimp only
      rw [List.append_cons]
      exact ih hopening (by rw [List.length_append, List.length_singleton]; exact hlt)
    · have hopened : e.openChannel channelType = (e, .error .MaxChannelsCountReached) := by
        unfold openChannel
        rw [h.available, hfull, popFirst_idsFrom_last]
      rw [hopened]
      exact .inr ⟨rfl, by rw [List.length_append, List.length_cons]; omega⟩

end Endpoint

/-- **The channels of a configuration are the same at both ends.** A client can open a connection with it if and only
if it has at most 100 channels, and a server can be started with it if and only if it has at most 255. If both
can, the server accepts the client, and the ids at both ends are the places in the configuration. -/
theorem configured_channels_agree (config : ChannelsConfiguration) :
    ((∃ c, Connection.openConnection config = .ok c) ↔ config.channels.length ≤ 100) ∧
    ((∃ e, Endpoint.startEndpoint config = .ok e) ↔ config.channels.length ≤ 255) ∧
    ∀ c e, Connection.openConnection config = .ok c → Endpoint.startEndpoint config = .ok e →
      (∀ id, c.typeOf id = config.channels[id.toNat]?) ∧
      ∃ e' client connection, e.handleConnection .new true = (e', .ok client) ∧ e'.clients = [(client, connection)] ∧
        ∀ id, connection.typeOf id = config.channels[id.toNat]? := by
  have hclient := Connection.openConnection_spec config
  have hserver := Endpoint.opening_openChannels Endpoint.opening_new (Nat.zero_le _) config.channels
  rw [List.nil_append] at hserver
  refine ⟨?_, ?_, fun c e hc he => ?_⟩
  · rcases hclient with ⟨c, hc, -, hle⟩ | ⟨herr, hlt⟩
    · exact ⟨fun _ => hle, fun _ => ⟨c, hc⟩⟩
    · refine ⟨fun ⟨c, hc⟩ => ?_, fun hle => absurd hlt (Nat.not_lt.mpr hle)⟩
      rw [herr] at hc
      cases hc
  · rcases hserver with ⟨e, he, -, hle⟩ | ⟨herr, hlt⟩
    · exact ⟨fun _ => hle, fun _ => ⟨e, he⟩⟩
    · refine ⟨fun ⟨e, he⟩ => ?_, fun hle => absurd hlt (Nat.not_lt.mpr hle)⟩
      rw [Endpoint.startEndpoint, herr] at he
      cases he
  · rcases hclient with ⟨c', hc', hopening, hle⟩ | ⟨herr, -⟩
    · rw [hc'] at hc
      cases hc
      rcases hserver with ⟨e', he', hstarted, -⟩ | ⟨herr, -⟩
      · rw [Endpoint.startEndpoint, he'] at he
        cases he
        refine ⟨hopening.types, ?_⟩
        obtain ⟨connection, hcreated⟩ := (Endpoint.createAll_ok_iff e.openedChannels .new rfl).mpr
          (.inr (by rw [hstarted.length]; exact (Nat.zero_add _).symm ▸ hle))
        obtain ⟨htypes, hothers⟩ := Endpoint.createAll_spec hstarted.nodup hcreated
        refine ⟨_, e.clientIdGen + 1, connection, by rw [Endpoint.handleConnection, hcreated]; rfl, ?_, fun id => ?_⟩
        · rw [hstarted.alone]
        · cases hget : config.channels[id.toNat]? with
          | some channelType => exact htypes _ ((hstarted.types id channelType).mpr hget)
          | none =>
            have hclosed : id ∉ e.openedChannels.map Prod.fst := by
              rintro hmem
              obtain ⟨p, hp, rfl⟩ := List.mem_map.mp hmem
              rw [(hstarted.types p.1 p.2).mp hp] at hget
              cases hget
            unfold ClientConnection.typeOf
            rw [hothers id hclosed]
            rfl
      · rw [Endpoint.startEndpoint, herr] at he
        cases he
    · rw [herr] at hc
      cases hc

namespace Connection

variable {c : Connection}

/-- Opening channels changes nothing but them. -/
structure SameBut (c' c : Connection) : Prop where
  /-- There is a connection or not. -/
  state : c'.state = c.state
  /-- The configuration is the same. -/
  channelsConfig : c'.channelsConfig = c.channelsConfig
  /-- What has been read is the same. -/
  bytesFromServer : c'.bytesFromServer = c.bytesFromServer
  /-- So is what has been received. -/
  receivedMessagesCount : c'.receivedMessagesCount = c.receivedMessagesCount

theorem SameBut.rfl : SameBut c c := ⟨Eq.refl _, Eq.refl _, Eq.refl _, Eq.refl _⟩

theorem SameBut.trans {c₁ c₂ c₃ : Connection} (h : SameBut c₁ c₂) (h' : SameBut c₂ c₃) : SameBut c₁ c₃ where
  state := h.state.trans h'.state
  channelsConfig := h.channelsConfig.trans h'.channelsConfig
  bytesFromServer := h.bytesFromServer.trans h'.bytesFromServer
  receivedMessagesCount := h.receivedMessagesCount.trans h'.receivedMessagesCount

theorem sameBut_openChannel (c : Connection) (channelType : ChannelType) : SameBut (c.openChannel channelType).1 c := by
  unfold openChannel createChannel
  split
  · exact .rfl
  · next id hpop =>
    dsimp only
    rcases c.toClientConnection.createChannel id channelType with ⟨c₁, err | u⟩
    · exact ⟨rfl, rfl, rfl, rfl⟩
    · exact ⟨rfl, rfl, rfl, rfl⟩

theorem sameBut_openConfiguredChannels (c : Connection) (types : List ChannelType) :
    SameBut (c.openConfiguredChannels types).1 c := by
  induction types generalizing c with
  | nil => exact .rfl
  | cons channelType rest ih =>
    have hsame := sameBut_openChannel c channelType
    rw [openConfiguredChannels]
    split
    · next heq =>
      rw [heq] at hsame
      exact (ih _).trans hsame
    · next heq =>
      rw [heq] at hsame
      exact hsame

theorem channelsConfig_disconnect (c : Connection) : c.disconnect.1.channelsConfig = c.channelsConfig := by
  unfold disconnect
  split <;> rfl

/-- The configuration stays the same. -/
theorem channelsConfig_step (c : Connection) (event : Event) : (c.step event).channelsConfig = c.channelsConfig := by
  cases event with
  | openChannel channelType => exact (sameBut_openChannel c channelType).channelsConfig
  | closeChannel id =>
    show (c.closeChannel id).1.channelsConfig = _
    unfold closeChannel
    split <;> rfl
  | send id payload =>
    show (c.sendPayloadOn id payload).1.channelsConfig = _
    unfold sendPayloadOn
    split <;> rfl
  | receive reading =>
    show (c.receivePayload reading).1.channelsConfig = _
    unfold receivePayload
    split
    · rfl
    · split <;> rfl
  | disconnect => exact channelsConfig_disconnect c
  | reconnect =>
    show c.reconnect.1.channelsConfig = _
    unfold reconnect
    split
    · exact (sameBut_openConfiguredChannels _ _).channelsConfig
    · rfl
  | handle message => cases message <;> first | rfl | exact channelsConfig_disconnect c
  | setDefaultChannel _ | read _ | change _ => rfl

/-- **A connection can always try to connect again**: whatever has happened to it, if there is none, the channels of
its configuration are opened again, and no others; and nothing has been read or received. -/
theorem reconnect_spec (h : Reachable c) (hstate : c.state = .Disconnected) :
    ∃ c', c.reconnect = (c', .ok ()) ∧ c'.state = .Connecting ∧ c'.channelsConfig = c.channelsConfig ∧
      c'.bytesFromServer = [] ∧ c'.receivedMessagesCount = 0 ∧
      ∀ id, c'.typeOf id = c.channelsConfig.channels[id.toNat]? := by
  have hsmall : c.channelsConfig.channels.length ≤ DEFAULT_INTERNAL_MESSAGE_CHANNEL_SIZE := by
    refine @Reached.invariant _ _ _ _ _
      (fun c : Connection => c.channelsConfig.channels.length ≤ DEFAULT_INTERNAL_MESSAGE_CHANNEL_SIZE) _ h ?_ ?_
    · rintro c ⟨config, hopen⟩
      have hconfig := (sameBut_openConfiguredChannels (new config) config.channels).channelsConfig
      rw [openConnection_eq hopen] at hconfig
      rw [show c.channelsConfig = config from hconfig]
      rcases openConnection_spec config with ⟨_, _, _, hle⟩ | ⟨herr, _⟩
      · exact hle
      · rw [hopen] at herr
        cases herr
    · intro c c' event hle _ hhappens
      rw [← hhappens, channelsConfig_step]
      exact hle
  unfold reconnect
  rw [if_pos hstate]
  rcases opening_openConfiguredChannels (opening_new c.channelsConfig) (Nat.zero_le _) c.channelsConfig.channels with
    ⟨c', hopened, hopening, -⟩ | ⟨-, hlt⟩
  · have hsame := sameBut_openConfiguredChannels (new c.channelsConfig) c.channelsConfig.channels
    rw [hopened] at hsame
    exact ⟨c', hopened, hsame.state, hsame.channelsConfig, hsame.bytesFromServer, hsame.receivedMessagesCount,
      hopening.types⟩
  · rw [List.nil_append] at hlt
    exact absurd hsmall (Nat.not_le.mpr hlt)

theorem reconnect_spec_gameClient :
    gameClient.typeOf 1 = none ∧ ∃ c', gameClient.reconnect = (c', .ok ()) ∧ c'.state = .Connecting ∧
      c'.channelsConfig = gameClient.channelsConfig ∧ c'.bytesFromServer = [] ∧ c'.receivedMessagesCount = 0 ∧
      ∀ id, c'.typeOf id = gameClient.channelsConfig.channels[id.toNat]? :=
  ⟨by decide, reconnect_spec reachable_gameClient (by decide)⟩

end Connection

end Distgard.Quintet
