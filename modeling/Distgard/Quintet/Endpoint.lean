import Distgard.Lib.Run
import Distgard.Lib.TryEach
import Distgard.Quintet.Channels
import Mathlib.Data.Finset.Card
import Mathlib.Data.Finset.Range
import Mathlib.Data.List.Nodup

/-!
# The endpoint of a server

A server has clients, and channels that are open to all of them. Opening a channel asks each client
for a task, in the order of the map of the clients, and stops where a client refuses; closing one stops
where the task of a client has ended. A client that connects is given a task for each channel before it
is accepted. In each update the server handles what the tasks of its connections have told it, and tells
of the clients that have come and gone.

## The model

A queue of requests is how many wait in it, and whether it is read any more. The maps are lists, in the order in
which they are iterated, which may change at any time. The tasks and the network do what they like:
requests and messages are taken, tasks end, connections come and go. Counters do not overflow.

## What is proved

* `channels_agree` — in every run, a channel is open with its type for every client, its id is not
  available, and a message on it is refused only by a client whose queue is full or whose task has ended; those
  before it have got the message.
* `ids_complete` — as long as no client refuses a channel, the ids of the open channels and those that
  are available are together the first 255, and a client has no other channels.
* `handleConnection_ok_iff` — a client that can be asked is accepted if and only if no more than 100 channels
  are open.
* `sessions` — the events of each client are that it has connected, and then perhaps that it is lost; ids
  are given in order, and none twice.
-/

namespace Distgard.Quintet

open Lib

/-- A channel to a client, and its task. -/
structure Channel where
  /-- What the task was asked to be. -/
  channelType : ChannelType
  /-- What waits for the task. -/
  queue : List Bytes
  /-- The task has ended. -/
  ended : Bool

namespace Channel

/-- Give a message to the task. -/
def sendPayload (channel : Channel) (payload : Bytes) : Channel × Except QuintetError Unit :=
  if channel.ended then
    (channel, .error .InternalChannelClosed)
  else if DEFAULT_MESSAGE_QUEUE_SIZE ≤ channel.queue.length then
    (channel, .error .FullQueue)
  else
    ({ channel with queue := channel.queue ++ [payload] }, .ok ())

/-- Tell the task to end. -/
def close (channel : Channel) : Except QuintetError Unit := if channel.ended then .error .ChannelClosed else .ok ()

end Channel

/-- A connection to a client. -/
structure ClientConnection where
  /-- Its channels. -/
  channels : List (Option Channel)
  /-- How many requests for a task wait. -/
  toChannels : ℕ
  /-- Nobody takes requests any more. -/
  refuses : Bool
  /-- All its tasks have ended. -/
  gone : Bool

namespace ClientConnection

/-- A connection that has come. -/
def new : ClientConnection := ⟨[], 0, false, false⟩

/-- The channel with an id, if it is open. -/
def channel (c : ClientConnection) (id : ChannelId) : Option Channel := (c.channels[id.toNat]?).join

/-- Put a channel in its place. -/
def setChannel (channels : List (Option Channel)) (id : ChannelId) (channel : Channel) : List (Option Channel) :=
  if id.toNat < channels.length then
    channels.set id.toNat (some channel)
  else
    channels ++ List.replicate (id.toNat - channels.length) none ++ [some channel]

/-- Ask for the task of a channel. -/
def createChannel (c : ClientConnection) (id : ChannelId) (channelType : ChannelType) :
    ClientConnection × Except QuintetError Unit :=
  if c.refuses then
    (c, .error .InternalChannelClosed)
  else if DEFAULT_INTERNAL_MESSAGE_CHANNEL_SIZE ≤ c.toChannels then
    (c, .error .FullQueue)
  else
    ({ c with channels := setChannel c.channels id ⟨channelType, [], false⟩, toChannels := c.toChannels + 1 }, .ok ())

/-- Take a channel out of its place, and end its task. -/
def closeChannel (c : ClientConnection) (id : ChannelId) : ClientConnection × Except QuintetError Unit :=
  match c.channels[id.toNat]? with
  | some (some channel) => ({ c with channels := c.channels.set id.toNat none }, channel.close)
  | some none => (c, .error .ChannelClosed)
  | none => (c, .error (.UnknownChannel id))

/-- Send a message on a channel. -/
def sendPayload (payload : Bytes) (id : ChannelId) (c : ClientConnection) : ClientConnection × Except QuintetError Unit :=
  match c.channels[id.toNat]? with
  | some (some channel) =>
    let sent := channel.sendPayload payload
    ({ c with channels := c.channels.set id.toNat (some sent.1) }, sent.2)
  | some none => (c, .error .ChannelClosed)
  | none => (c, .error (.UnknownChannel id))

/-- What the tasks of a connection do. -/
inductive Change where
  /-- A request is taken. -/
  | takeRequest
  /-- No request will be taken any more. -/
  | refuse
  /-- The task of a channel takes a message. -/
  | takeMessage (id : ChannelId)
  /-- The task of a channel ends. -/
  | endTask (id : ChannelId)
  /-- All tasks have ended. -/
  | go

/-- A change of a channel, if it is open. -/
def modifyChannel (c : ClientConnection) (id : ChannelId) (f : Channel → Channel) : ClientConnection :=
  { c with channels := c.channels.modify id.toNat (Option.map f) }

/-- What a task has done. -/
def change (c : ClientConnection) : Change → ClientConnection
  | .takeRequest => { c with toChannels := c.toChannels - 1 }
  | .refuse => { c with refuses := true }
  | .takeMessage id => c.modifyChannel id fun channel => { channel with queue := channel.queue.tail }
  | .endTask id => c.modifyChannel id fun channel => { channel with ended := true }
  | .go => { c with gone := true }

end ClientConnection

/-- The endpoint of a server. -/
structure Endpoint where
  /-- The clients. -/
  clients : List (ClientId × ClientConnection)
  /-- The last id that was given. -/
  clientIdGen : ClientId
  /-- The channels that are open. -/
  openedChannels : List (ChannelId × ChannelType)
  /-- The ids that can be given to channels. -/
  availableChannelIds : ChannelId → Bool
  /-- The channel that is used if none is named. -/
  defaultChannel : Option ChannelId
  /-- How many clients have come. -/
  connectCount : ℕ
  /-- How many connections were reported as closed. -/
  disconnectCount : ℕ

namespace Endpoint

/-- An endpoint that has been started, without channels. -/
def new : Endpoint where
  clients := []
  clientIdGen := 0
  openedChannels := []
  availableChannelIds id := id.toNat < 255
  defaultChannel := none
  connectCount := 0
  disconnectCount := 0

/-- The least id that is available. -/
def popFirst (available : ChannelId → Bool) : Option ChannelId := ((List.range 256).map UInt8.ofNat).find? available

/-- Ask all clients for the task of a channel. -/
def createChannel (e : Endpoint) (id : ChannelId) (channelType : ChannelType) : Endpoint × Except QuintetError ChannelId :=
  let created := tryEach (fun c => c.createChannel id channelType) e.clients
  let e := { e with clients := created.1 }
  match created.2 with
  | .ok () =>
    ({ e with
      openedChannels := (id, channelType) :: e.openedChannels.filter fun p => p.1 ≠ id
      defaultChannel := e.defaultChannel <|> some id }, .ok id)
  | .error err => (e, .error err)

/-- Open a channel. -/
def openChannel (e : Endpoint) (channelType : ChannelType) : Endpoint × Except QuintetError ChannelId :=
  match popFirst e.availableChannelIds with
  | none => (e, .error .MaxChannelsCountReached)
  | some id =>
    let e := { e with availableChannelIds := Function.update e.availableChannelIds id false }
    match e.createChannel id channelType with
    | (e, .ok id) => (e, .ok id)
    | (e, .error err) =>
      ({ e with availableChannelIds := Function.update e.availableChannelIds id true }, .error err)

/-- Close a channel. -/
def closeChannel (e : Endpoint) (id : ChannelId) : Endpoint × Except QuintetError Unit :=
  if id ∈ e.openedChannels.map Prod.fst then
    let closed := tryEach (fun c => c.closeChannel id) e.clients
    let e := { e with
      openedChannels := e.openedChannels.filter fun p => p.1 ≠ id
      defaultChannel := if some id = e.defaultChannel then none else e.defaultChannel
      clients := closed.1 }
    match closed.2 with
    | .ok () => ({ e with availableChannelIds := Function.update e.availableChannelIds id true }, .ok ())
    | .error err => (e, .error err)
  else
    (e, .error (.UnknownChannel id))

/-- Send a message to all clients. -/
def broadcastPayloadOn (e : Endpoint) (id : ChannelId) (payload : Bytes) : Endpoint × Except QuintetError Unit :=
  let sent := tryEach (ClientConnection.sendPayload payload id) e.clients
  ({ e with clients := sent.1 }, sent.2)

/-- Send a message to a client. -/
def sendPayloadOn (e : Endpoint) (client : ClientId) (id : ChannelId) (payload : Bytes) :
    Endpoint × Except QuintetError Unit :=
  match e.clients.find? fun p => p.1 = client with
  | some p =>
    let sent := p.2.sendPayload payload id
    ({ e with clients := e.clients.map fun q => if q.1 = client then (q.1, sent.1) else q }, sent.2)
  | none => (e, .error (.UnknownClient client))

/-- Ask for the tasks of all channels that are open. -/
def createAll (c : ClientConnection) : List (ChannelId × ChannelType) → Except QuintetError ClientConnection
  | [] => .ok c
  | (id, channelType) :: rest =>
    match c.createChannel id channelType with
    | (c, .ok ()) => createAll c rest
    | (_, .error err) => .error err

/-- Accept a connection; `acked` is whether it still waits to be accepted. -/
def handleConnection (e : Endpoint) (connection : ClientConnection) (acked : Bool) :
    Endpoint × Except QuintetError ClientId :=
  match createAll connection e.openedChannels with
  | .error err => (e, .error err)
  | .ok connection =>
    let id := e.clientIdGen + 1
    if acked then
      ({ e with clientIdGen := id, clients := (id, connection) :: e.clients }, .ok id)
    else
      ({ e with clientIdGen := id }, .error .InternalChannelClosed)

/-- Disconnect a client: it is removed, and its tasks are told to end. -/
def disconnectClient (e : Endpoint) (client : ClientId) : Endpoint × Except QuintetError Unit :=
  match e.clients.find? fun p => p.1 = client with
  | some p =>
    ({ e with clients := e.clients.filter fun p => p.1 ≠ client },
      if p.2.gone then .error (.ClientAlreadyDisconnected client) else .ok ())
  | none => (e, .error (.UnknownClient client))

/-! ### Updates -/

/-- What the tasks of the connections tell the server. -/
inductive ServerAsyncMessage where
  /-- A client has connected. -/
  | ClientConnected (acked : Bool)
  /-- A connection was closed. -/
  | ClientConnectionClosed (client : ClientId)

/-- What the server tells of its clients. -/
inductive ServerEvent where
  /-- It has connected. -/
  | ConnectionEvent (client : ClientId)
  /-- It is lost. -/
  | ConnectionLostEvent (client : ClientId)
  deriving DecidableEq

/-- The client an event is about. -/
def ServerEvent.client : ServerEvent → ClientId
  | .ConnectionEvent client | .ConnectionLostEvent client => client

/-- Handle a message. -/
def handleMessage (e : Endpoint) : ServerAsyncMessage → Endpoint × List ServerEvent
  | .ClientConnected acked =>
    match e.handleConnection .new acked with
    | (e, .ok client) => ({ e with connectCount := e.connectCount + 1 }, [.ConnectionEvent client])
    | (e, .error _) => (e, [])
  | .ClientConnectionClosed client =>
    if client ∈ e.clients.map Prod.fst then
      let e := { e with disconnectCount := e.disconnectCount + 1 }
      ((e.disconnectClient client).1, [.ConnectionLostEvent client])
    else
      (e, [])

/-- Handle messages, one after the other. -/
def handleMessages (e : Endpoint) : List ServerAsyncMessage → Endpoint × List ServerEvent
  | [] => (e, [])
  | message :: messages =>
    let handled := e.handleMessage message
    let rest := handleMessages handled.1 messages
    (rest.1, handled.2 ++ rest.2)

/-- An update: the messages are handled, and then the clients are disconnected of which a task has
reported, `reports` times, that the connection is lost. -/
def updateSyncServer (e : Endpoint) (messages : List ServerAsyncMessage) (reports : ClientId → ℕ) :
    Endpoint × List ServerEvent :=
  let handled := e.handleMessages messages
  let lost := (handled.1.clients.map Prod.fst).filter fun client => 0 < reports client
  (lost.foldl (fun e client => (e.disconnectClient client).1) handled.1,
    handled.2 ++ lost.map .ConnectionLostEvent)

end Endpoint

/-- An endpoint, and all that was told of its clients. -/
structure Server where
  /-- The endpoint. -/
  endpoint : Endpoint
  /-- The events, the first one first. -/
  events : List Endpoint.ServerEvent

namespace Server

open Endpoint

/-- What happens to an endpoint. -/
inductive Event where
  /-- A channel is opened. -/
  | openChannel (channelType : ChannelType)
  /-- A channel is closed. -/
  | closeChannel (id : ChannelId)
  /-- Another channel is to be used if none is named. -/
  | setDefaultChannel (id : ChannelId)
  /-- A message is sent to a client. -/
  | send (client : ClientId) (id : ChannelId) (payload : Bytes)
  /-- A message is sent to all clients. -/
  | broadcast (id : ChannelId) (payload : Bytes)
  /-- A client is disconnected. -/
  | disconnectClient (client : ClientId)
  /-- An update. -/
  | update (messages : List ServerAsyncMessage) (reports : ClientId → ℕ)
  /-- A task of a connection has done something. -/
  | change (client : ClientId) (change : ClientConnection.Change)
  /-- The maps are iterated in another order. -/
  | shuffle (clients : List (ClientId × ClientConnection)) (openedChannels : List (ChannelId × ChannelType))

/-- What may happen: only the order of the maps changes by itself. -/
def Allowed (s : Server) : Event → Prop
  | .shuffle clients openedChannels => clients.Perm s.endpoint.clients ∧ openedChannels.Perm s.endpoint.openedChannels
  | _ => True

/-- What an event does. -/
def step (s : Server) : Event → Server
  | .openChannel channelType => { s with endpoint := (s.endpoint.openChannel channelType).1 }
  | .closeChannel id => { s with endpoint := (s.endpoint.closeChannel id).1 }
  | .setDefaultChannel id => { s with endpoint := { s.endpoint with defaultChannel := some id } }
  | .send client id payload => { s with endpoint := (s.endpoint.sendPayloadOn client id payload).1 }
  | .broadcast id payload => { s with endpoint := (s.endpoint.broadcastPayloadOn id payload).1 }
  | .disconnectClient client => { s with endpoint := (s.endpoint.disconnectClient client).1 }
  | .update messages reports =>
    let updated := s.endpoint.updateSyncServer messages reports
    ⟨updated.1, s.events ++ updated.2⟩
  | .change client change => { s with endpoint := { s.endpoint with
      clients := s.endpoint.clients.map fun p => if p.1 = client then (p.1, p.2.change change) else p } }
  | .shuffle clients openedChannels => { s with endpoint := { s.endpoint with
      clients := clients, openedChannels := openedChannels } }

/-- The states of the runs. -/
abbrev Reachable : Server → Prop := Reached (· = ⟨.new, []⟩) Allowed fun s event s' => s.step event = s'

end Server

/-! ### The channels of a connection -/

namespace ClientConnection

theorem getElem?_setChannel (channels : List (Option Channel)) (id : ChannelId) (channel : Channel) (i : ℕ) :
    ((setChannel channels id channel)[i]?).join = if i = id.toNat then some channel else (channels[i]?).join := by
  unfold setChannel
  split
  · next hlt =>
    rw [List.getElem?_set]
    by_cases hi : i = id.toNat
    · rw [if_pos hi.symm, if_pos hlt, if_pos hi]
      rfl
    · rw [if_neg (Ne.symm hi), if_neg hi]
  · next hge =>
    rw [List.append_assoc]
    rcases Nat.lt_or_ge i channels.length with hi | hi
    · rw [List.getElem?_append_left hi, if_neg (by omega)]
    · rw [List.getElem?_append_right hi, List.getElem?_eq_none hi]
      rcases Nat.lt_trichotomy i id.toNat with hlt | heq | hgt
      · rw [List.getElem?_append_left (by rw [List.length_replicate]; omega), if_neg (by omega),
          List.getElem?_replicate_of_lt (by omega)]
        rfl
      · rw [List.getElem?_append_right (by rw [List.length_replicate]; omega), if_pos heq, List.length_replicate, heq,
          Nat.sub_self]
        rfl
      · rw [List.getElem?_eq_none, if_neg (by omega)]
        rw [List.length_append, List.length_replicate, List.length_singleton]
        omega

/-- The type of a channel, if it is open. -/
def typeOf (c : ClientConnection) (id : ChannelId) : Option ChannelType := (c.channel id).map Channel.channelType

variable {c c' : ClientConnection} {id id' : ChannelId} {channelType : ChannelType}

theorem createChannel_ok_iff (c : ClientConnection) (id : ChannelId) (channelType : ChannelType) :
    (c.createChannel id channelType).2 = .ok () ↔
      c.refuses = false ∧ c.toChannels < DEFAULT_INTERNAL_MESSAGE_CHANNEL_SIZE := by
  unfold createChannel
  by_cases hrefuses : c.refuses = true
  · simp [hrefuses]
  · by_cases hfull : DEFAULT_INTERNAL_MESSAGE_CHANNEL_SIZE ≤ c.toChannels
    · simp [hrefuses, hfull]
    · simp [hrefuses, hfull, Nat.lt_of_not_le hfull]

theorem createChannel_ok (h : c.createChannel id channelType = (c', .ok ())) :
    c'.channel id = some ⟨channelType, [], false⟩ ∧ c'.toChannels = c.toChannels + 1 ∧ c'.refuses = c.refuses := by
  unfold createChannel at h
  split at h
  · cases h
  · split at h
    · cases h
    · cases h
      refine ⟨?_, rfl, rfl⟩
      unfold channel
      rw [getElem?_setChannel, if_pos rfl]

theorem createChannel_error {err : QuintetError} (h : (c.createChannel id channelType).2 = .error err) :
    err = .InternalChannelClosed ∨ err = .FullQueue := by
  unfold createChannel at h
  split at h
  · exact .inl (Except.error.inj h).symm
  · split at h
    · exact .inr (Except.error.inj h).symm
    · cases h

theorem createChannel_error_same {err : QuintetError} (h : c.createChannel id channelType = (c', .error err)) : c' = c := by
  unfold createChannel at h
  split at h
  · cases h
    rfl
  · split at h
    · cases h
      rfl
    · cases h

/-- A channel that is open is closed unless its task has ended. -/
theorem closeChannel_of_typeOf {err : QuintetError} (htype : c.typeOf id = some channelType)
    (h : (c.closeChannel id).2 = .error err) : err = .ChannelClosed := by
  unfold typeOf at htype
  obtain ⟨channel, hchannel, -⟩ := Option.map_eq_some_iff.mp htype
  have hopen : c.channels[id.toNat]? = some (some channel) := Option.join_eq_some_iff.mp hchannel
  unfold closeChannel at h
  rw [hopen] at h
  dsimp only at h
  unfold Channel.close at h
  split at h
  · exact (Except.error.inj h).symm
  · cases h

theorem channel_createChannel_of_ne (c : ClientConnection) (channelType : ChannelType) (hne : id' ≠ id) : (c.createChannel id channelType).1.channel id' = c.channel id' := by
  unfold createChannel
  split
  · rfl
  · split
    · rfl
    · unfold channel
      rw [getElem?_setChannel, if_neg fun h => hne (UInt8.toNat_inj.mp h)]

theorem channel_closeChannel_of_ne (c : ClientConnection) (hne : id' ≠ id) : (c.closeChannel id).1.channel id' = c.channel id' := by
  unfold closeChannel
  split
  · unfold channel
    rw [List.getElem?_set_ne fun h => hne (UInt8.toNat_inj.mp h.symm)]
  · rfl
  · rfl

theorem channel_closeChannel_self (c : ClientConnection) (id : ChannelId) : (c.closeChannel id).1.channel id = none := by
  unfold closeChannel
  split
  · next channel hchannel =>
    unfold ClientConnection.channel
    rw [List.getElem?_set_self (List.getElem?_eq_some_iff.mp hchannel).1]
    rfl
  · next hchannel =>
    unfold ClientConnection.channel
    rw [hchannel]
    rfl
  · next hchannel =>
    unfold ClientConnection.channel
    rw [hchannel]
    rfl

theorem typeOf_sendPayload (payload : Bytes) (id : ChannelId) (c : ClientConnection) (id' : ChannelId) :
    (sendPayload payload id c).1.typeOf id' = c.typeOf id' := by
  unfold sendPayload
  split
  · next channel hchannel =>
    unfold typeOf ClientConnection.channel
    by_cases hid : id' = id
    · subst hid
      have htype : (channel.sendPayload payload).1.channelType = channel.channelType := by
        unfold Channel.sendPayload
        split
        · rfl
        · split <;> rfl
      rw [List.getElem?_set_self (List.getElem?_eq_some_iff.mp hchannel).1, hchannel]
      exact congrArg some htype
    · rw [List.getElem?_set_ne fun h => hid (UInt8.toNat_inj.mp h.symm)]
  · rfl
  · rfl

theorem typeOf_modifyChannel (c : ClientConnection) (id id' : ChannelId) {f : Channel → Channel}
    (hf : ∀ channel, (f channel).channelType = channel.channelType) : (c.modifyChannel id f).typeOf id' = c.typeOf id' := by
  unfold modifyChannel typeOf channel
  rw [List.getElem?_modify]
  by_cases hid : id.toNat = id'.toNat
  · rw [hid]
    rcases c.channels[id'.toNat]? with _ | _ | channel
    · rfl
    · simp
    · simp [hf]
  · simp [hid]

theorem typeOf_change (c : ClientConnection) (change : Change) (id : ChannelId) : (c.change change).typeOf id = c.typeOf id := by
  cases change with
  | takeRequest => rfl
  | refuse => rfl
  | takeMessage id' => exact typeOf_modifyChannel c id' id fun _ => rfl
  | endTask id' => exact typeOf_modifyChannel c id' id fun _ => rfl
  | go => rfl

/-- The channel has room for a message, and a task. -/
def Takes (c : ClientConnection) (id : ChannelId) : Prop :=
  ∃ channel, c.channel id = some channel ∧ channel.ended = false ∧ channel.queue.length < DEFAULT_MESSAGE_QUEUE_SIZE

/-- A message on a channel that is open is refused only if there is no room, or no task. -/
theorem sendPayload_of_typeOf (payload : Bytes) (h : c.typeOf id = some channelType) :
    (c.Takes id ∧ (sendPayload payload id c).2 = .ok ()) ∨
    (¬ c.Takes id ∧ (sendPayload payload id c).1 = c ∧
      ∃ err, (sendPayload payload id c).2 = .error err ∧ (err = .FullQueue ∨ err = .InternalChannelClosed)) := by
  unfold typeOf at h
  obtain ⟨channel, hchannel, -⟩ := Option.map_eq_some_iff.mp h
  have hopen : c.channels[id.toNat]? = some (some channel) := Option.join_eq_some_iff.mp hchannel
  have hsame : ({ c with channels := c.channels.set id.toNat (some channel) } : ClientConnection) = c := by
    obtain ⟨hlt, hget⟩ := List.getElem?_eq_some_iff.mp hopen
    rw [← hget, List.set_getElem_self]
  unfold sendPayload
  rw [hopen]
  unfold Channel.sendPayload
  dsimp only
  by_cases hended : channel.ended = true
  · rw [if_pos hended]
    refine .inr ⟨?_, hsame, .InternalChannelClosed, rfl, .inr rfl⟩
    rintro ⟨channel', hchannel', hrunning, -⟩
    rw [hchannel, Option.some.injEq] at hchannel'
    rw [← hchannel', hended] at hrunning
    cases hrunning
  · rw [if_neg hended]
    by_cases hfull : DEFAULT_MESSAGE_QUEUE_SIZE ≤ channel.queue.length
    · rw [if_pos hfull]
      refine .inr ⟨?_, hsame, .FullQueue, rfl, .inl rfl⟩
      rintro ⟨channel', hchannel', -, hroom⟩
      rw [hchannel, Option.some.injEq] at hchannel'
      rw [← hchannel'] at hroom
      exact Nat.not_lt.mpr hfull hroom
    · rw [if_neg hfull]
      exact .inl ⟨⟨channel, hchannel, by simpa using hended, Nat.lt_of_not_le hfull⟩, rfl⟩

end ClientConnection

namespace Endpoint

variable {e e' : Endpoint} {id : ChannelId} {channelType : ChannelType}

/-! ### Channels -/

/-- The id of a channel that is open. -/
def Opened (e : Endpoint) (id : ChannelId) : Prop := id ∈ e.openedChannels.map Prod.fst

theorem popFirst_some {available : ChannelId → Bool} (h : popFirst available = some id) : available id = true :=
  List.find?_some h

/-- If an id is available, one is found. -/
theorem popFirst_isSome {available : ChannelId → Bool} (h : available id = true) : ∃ id', popFirst available = some id' := by
  cases hpop : popFirst available with
  | some id' => exact ⟨id', rfl⟩
  | none =>
    refine absurd h (List.find?_eq_none.mp hpop id ?_)
    exact List.mem_map.mpr ⟨id.toNat, List.mem_range.mpr id.toNat_lt, UInt8.ofNat_toNat⟩

/-- What holds of the channels in every run. -/
structure Channels (e : Endpoint) : Prop where
  /-- They are open for every client. -/
  agree : ∀ p ∈ e.openedChannels, ∀ q ∈ e.clients, q.2.typeOf p.1 = some p.2
  /-- Each is open once. -/
  nodup : (e.openedChannels.map Prod.fst).Nodup
  /-- An id that is available is one of the first 255, and is not that of an open channel. -/
  available : ∀ id, e.availableChannelIds id = true → id.toNat < 255 ∧ ¬ e.Opened id
  /-- An open channel has one of the first 255 ids. -/
  small : ∀ id, e.Opened id → id.toNat < 255

theorem channels_new : Channels .new where
  agree _ hp := (List.not_mem_nil hp).elim
  nodup := List.nodup_nil
  available _ h := ⟨of_decide_eq_true h, List.not_mem_nil⟩
  small _ h := (List.not_mem_nil h).elim

/-- Clients are only removed, and the types of the channels of the others stay. -/
structure Keeps (e e' : Endpoint) : Prop where
  /-- Nothing but the clients changes. -/
  same : e' = { e with clients := e'.clients }
  /-- They were clients, with channels of these types. -/
  types : ∀ q ∈ e'.clients, ∃ c, (q.1, c) ∈ e.clients ∧ ∀ id, q.2.typeOf id = c.typeOf id

theorem Channels.of_keeps (h : Channels e) (hkeeps : Keeps e e') : Channels e' := by
  rw [hkeeps.same]
  refine ⟨fun p hp q hq => ?_, h.nodup, h.available, h.small⟩
  obtain ⟨c, hc, htype⟩ := hkeeps.types q hq
  rw [htype]
  exact h.agree p hp _ hc

theorem opened_filter_ne {l : List (ChannelId × ChannelType)} {id id' : ChannelId} :
    id' ∈ (l.filter fun p => p.1 ≠ id).map Prod.fst ↔ id' ∈ l.map Prod.fst ∧ id' ≠ id := by
  simp only [List.mem_map, List.mem_filter, decide_eq_true_eq]
  constructor
  · rintro ⟨p, ⟨hp, hne⟩, rfl⟩
    exact ⟨⟨p, hp, rfl⟩, hne⟩
  · rintro ⟨⟨p, hp, rfl⟩, hne⟩
    exact ⟨p, ⟨hp, hne⟩, rfl⟩

/-- What asking the clients for the task of a channel does to their other channels. -/
theorem agree_createChannel (channelType : ChannelType) (h : Channels e) (hid : ¬ e.Opened id) {q : ClientId × ClientConnection}
    (hq : q ∈ (tryEach (fun c => c.createChannel id channelType) e.clients).1) :
    ∀ p ∈ e.openedChannels, q.2.typeOf p.1 = some p.2 := by
  intro p hp
  have hne : p.1 ≠ id := fun heq => hid (heq ▸ List.mem_map_of_mem hp)
  obtain ⟨c, hc, hor⟩ := mem_tryEach hq
  have hagree := h.agree p hp _ hc
  rcases hor with heq | heq
  · rw [heq]
    exact hagree
  · rw [heq]
    unfold ClientConnection.typeOf
    rw [ClientConnection.channel_createChannel_of_ne c channelType hne]
    exact hagree

theorem channels_openChannel (h : Channels e) (channelType : ChannelType) : Channels (e.openChannel channelType).1 := by
  unfold openChannel
  split
  · exact h
  · next id hpop =>
    have havailable := h.available id (popFirst_some hpop)
    have hothers : ∀ q ∈ (tryEach (fun c => c.createChannel id channelType) e.clients).1, ∀ p ∈ e.openedChannels,
        q.2.typeOf p.1 = some p.2 := fun q hq => agree_createChannel channelType h havailable.2 hq
    unfold createChannel
    dsimp only
    cases hcreated : (tryEach (fun c => c.createChannel id channelType) e.clients).2 with
    | ok =>
      -- every client has been asked, and has the channel
      dsimp only
      refine ⟨fun p hp q hq => ?_, ?_, fun id' h' => ?_, fun id' h' => ?_⟩
      · rcases List.mem_cons.mp hp with rfl | hp
        · obtain ⟨c, -, hc⟩ := mem_tryEach_ok hcreated hq
          unfold ClientConnection.typeOf
          rw [(ClientConnection.createChannel_ok hc).1]
          rfl
        · exact hothers q hq p (List.mem_of_mem_filter hp)
      · rw [List.map_cons, List.nodup_cons]
        refine ⟨fun hmem => (opened_filter_ne.mp hmem).2 rfl, ?_⟩
        exact (List.filter_sublist.map Prod.fst).nodup h.nodup
      · dsimp only at h'
        rw [Function.update_apply] at h'
        split at h'
        · cases h'
        · next hne =>
          refine ⟨(h.available id' h').1, fun hopened => ?_⟩
          rcases List.mem_cons.mp hopened with heq | hmem
          · exact hne heq
          · exact (h.available id' h').2 (opened_filter_ne.mp hmem).1
      · rcases List.mem_cons.mp h' with rfl | hmem
        · exact havailable.1
        · exact h.small id' (opened_filter_ne.mp hmem).1
    | error err =>
      dsimp only
      rw [Function.update_idem]
      refine ⟨fun p hp q hq => hothers q hq p hp, h.nodup, fun id' h' => ?_, h.small⟩
      dsimp only at h'
      rw [Function.update_apply] at h'
      split at h'
      · next heq =>
        rw [heq]
        exact havailable
      · exact h.available id' h'

theorem channels_closeChannel (h : Channels e) (id : ChannelId) : Channels (e.closeChannel id).1 := by
  unfold closeChannel
  split
  · next hopen =>
    have hagree : ∀ p ∈ e.openedChannels.filter (fun p => p.1 ≠ id),
        ∀ q ∈ (tryEach (fun c => c.closeChannel id) e.clients).1, q.2.typeOf p.1 = some p.2 := by
      intro p hp q hq
      obtain ⟨hp, hne⟩ := List.mem_filter.mp hp
      obtain ⟨c, hc, hor⟩ := mem_tryEach hq
      have hagree := h.agree p hp _ hc
      rcases hor with heq | heq
      · rw [heq]
        exact hagree
      · rw [heq]
        unfold ClientConnection.typeOf
        rw [ClientConnection.channel_closeChannel_of_ne c (of_decide_eq_true hne)]
        exact hagree
    have hnodup : ((e.openedChannels.filter fun p => p.1 ≠ id).map Prod.fst).Nodup :=
      (List.filter_sublist.map Prod.fst).nodup h.nodup
    dsimp only
    cases (tryEach (fun c => c.closeChannel id) e.clients).2 with
    | ok =>
      refine ⟨hagree, hnodup, fun id' h' => ?_, fun id' h' => h.small id' (opened_filter_ne.mp h').1⟩
      dsimp only at h'
      rw [Function.update_apply] at h'
      split at h'
      · next heq =>
        subst heq
        exact ⟨h.small id' hopen, fun hmem => (opened_filter_ne.mp hmem).2 rfl⟩
      · exact ⟨(h.available id' h').1, fun hmem => (h.available id' h').2 (opened_filter_ne.mp hmem).1⟩
    | error err =>
      refine ⟨hagree, hnodup, fun id' h' => ?_, fun id' h' => h.small id' (opened_filter_ne.mp h').1⟩
      exact ⟨(h.available id' h').1, fun hmem => (h.available id' h').2 (opened_filter_ne.mp hmem).1⟩
  · exact h

/-! ### What leaves the channels -/

theorem disconnectClient_eq (e : Endpoint) (client : ClientId) :
    (e.disconnectClient client).1 = { e with clients := e.clients.filter fun p => p.1 ≠ client } := by
  unfold disconnectClient
  cases hfind : e.clients.find? fun p => p.1 = client with
  | some p => rfl
  | none =>
    have hall : e.clients.filter (fun p => p.1 ≠ client) = e.clients := by
      refine List.filter_eq_self.mpr fun p hp => ?_
      have hne := List.find?_eq_none.mp hfind p hp
      simpa using hne
    dsimp only
    rw [hall]

theorem keeps_disconnectClient (e : Endpoint) (client : ClientId) : Keeps e (e.disconnectClient client).1 := by
  rw [disconnectClient_eq]
  exact ⟨rfl, fun q hq => ⟨q.2, List.mem_of_mem_filter hq, fun _ => rfl⟩⟩

theorem keeps_sendPayloadOn (e : Endpoint) (client : ClientId) (id : ChannelId) (payload : Bytes) :
    Keeps e (e.sendPayloadOn client id payload).1 := by
  unfold sendPayloadOn
  split
  · next p hfind =>
    refine ⟨rfl, fun q hq => ?_⟩
    obtain ⟨q', hq', rfl⟩ := List.mem_map.mp hq
    have hp := List.mem_of_find?_eq_some hfind
    have hclient : p.1 = client := by simpa using List.find?_some hfind
    split
    · next heq =>
      refine ⟨p.2, ?_, ClientConnection.typeOf_sendPayload payload id p.2⟩
      rw [heq, ← hclient]
      exact hp
    · exact ⟨q'.2, hq', fun _ => rfl⟩
  · exact ⟨rfl, fun q hq => ⟨q.2, hq, fun _ => rfl⟩⟩

theorem keeps_broadcastPayloadOn (e : Endpoint) (id : ChannelId) (payload : Bytes) :
    Keeps e (e.broadcastPayloadOn id payload).1 := by
  refine ⟨rfl, fun q hq => ?_⟩
  obtain ⟨c, hc, heq | heq⟩ := mem_tryEach hq
  · exact ⟨c, hc, fun _ => by rw [heq]⟩
  · exact ⟨c, hc, fun id' => by rw [heq, ClientConnection.typeOf_sendPayload]⟩

theorem keeps_change (e : Endpoint) (client : ClientId) (change : ClientConnection.Change) :
    Keeps e { e with clients := e.clients.map fun p => if p.1 = client then (p.1, p.2.change change) else p } := by
  refine ⟨rfl, fun q hq => ?_⟩
  obtain ⟨q', hq', rfl⟩ := List.mem_map.mp hq
  split
  · exact ⟨q'.2, hq', ClientConnection.typeOf_change q'.2 change⟩
  · exact ⟨q'.2, hq', fun _ => rfl⟩

/-! ### New connections -/

/-- What asking for the tasks of all channels does. -/
theorem createAll_spec {l : List (ChannelId × ChannelType)} {c c' : ClientConnection} (hnodup : (l.map Prod.fst).Nodup)
    (h : createAll c l = .ok c') :
    (∀ p ∈ l, c'.typeOf p.1 = some p.2) ∧ (∀ id, id ∉ l.map Prod.fst → c'.channel id = c.channel id) := by
  induction l generalizing c with
  | nil =>
    cases h
    exact ⟨fun p hp => (List.not_mem_nil hp).elim, fun _ _ => rfl⟩
  | cons p rest ih =>
    obtain ⟨id, channelType⟩ := p
    rw [createAll] at h
    split at h
    · next c₁ hcreated =>
      rw [List.map_cons, List.nodup_cons] at hnodup
      obtain ⟨htypes, hothers⟩ := ih hnodup.2 h
      have hchannel := (ClientConnection.createChannel_ok hcreated).1
      refine ⟨List.forall_mem_cons.mpr ⟨?_, htypes⟩, fun id' hid' => ?_⟩
      · unfold ClientConnection.typeOf
        rw [hothers id hnodup.1, hchannel]
        rfl
      · rw [List.map_cons, List.mem_cons, not_or] at hid'
        have hne := ClientConnection.channel_createChannel_of_ne c channelType hid'.1
        rw [hcreated] at hne
        rw [hothers id' hid'.2, hne]
    · cases h

/-- A client can be asked as long as its queue is not full. -/
theorem createAll_ok_iff (l : List (ChannelId × ChannelType)) (c : ClientConnection) (hrefuses : c.refuses = false) :
    (∃ c', createAll c l = .ok c') ↔ l = [] ∨ c.toChannels + l.length ≤ DEFAULT_INTERNAL_MESSAGE_CHANNEL_SIZE := by
  induction l generalizing c with
  | nil => exact ⟨fun _ => .inl rfl, fun _ => ⟨c, rfl⟩⟩
  | cons p rest ih =>
    obtain ⟨id, channelType⟩ := p
    rw [createAll]
    rcases hcreated : c.createChannel id channelType with ⟨c₁, err | u⟩
    · dsimp only
      have hfull : ¬ c.toChannels < DEFAULT_INTERNAL_MESSAGE_CHANNEL_SIZE := by
        intro hlt
        have hok := (ClientConnection.createChannel_ok_iff c id channelType).mpr ⟨hrefuses, hlt⟩
        rw [hcreated] at hok
        cases hok
      constructor
      · rintro ⟨c', hc'⟩
        cases hc'
      · rintro (hnil | hle)
        · cases hnil
        · rw [List.length_cons] at hle
          exact absurd (by omega) hfull
    · dsimp only
      obtain ⟨-, hcount, hrefuses'⟩ := ClientConnection.createChannel_ok hcreated
      have hroom := (ClientConnection.createChannel_ok_iff c id channelType).mp (by rw [hcreated])
      rw [ih c₁ (hrefuses'.trans hrefuses), hcount, List.length_cons]
      constructor
      · rintro (rfl | hle)
        · exact .inr (Nat.succ_le_of_lt hroom.2)
        · exact .inr (by omega)
      · rintro (hnil | hle)
        · cases hnil
        · exact .inr (by omega)

theorem channels_handleConnection (h : Channels e) (connection : ClientConnection) (acked : Bool) :
    Channels (e.handleConnection connection acked).1 := by
  unfold handleConnection
  split
  · exact h
  · next c hcreated =>
    dsimp only
    split
    · refine ⟨fun p hp q hq => ?_, h.nodup, h.available, h.small⟩
      rcases List.mem_cons.mp hq with rfl | hq
      · exact (createAll_spec h.nodup hcreated).1 p hp
      · exact h.agree p hp q hq
    · exact ⟨h.agree, h.nodup, h.available, h.small⟩

/-- **What an update keeps**: what accepting a connection and disconnecting a client keep, and does
not depend on the counters. -/
theorem updateSyncServer_keeps {P : Endpoint → Prop} (h : P e)
    (hconnection : ∀ e acked, P e → P (e.handleConnection .new acked).1)
    (hdisconnect : ∀ e client, P e → P (e.disconnectClient client).1)
    (hcount : ∀ e m n, P e → P { e with connectCount := m, disconnectCount := n })
    (messages : List ServerAsyncMessage) (reports : ClientId → ℕ) : P (e.updateSyncServer messages reports).1 := by
  have hmessage : ∀ e message, P e → P (e.handleMessage message).1 := by
    intro e message h
    cases message with
    | ClientConnected acked =>
      have hhandled := hconnection e acked h
      unfold handleMessage
      dsimp only
      split
      · next heq =>
        rw [heq] at hhandled
        exact hcount _ _ _ hhandled
      · next heq =>
        rw [heq] at hhandled
        exact hhandled
    | ClientConnectionClosed client =>
      unfold handleMessage
      dsimp only
      split
      · exact hdisconnect _ client (hcount _ _ (e.disconnectCount + 1) h)
      · exact h
  have hmessages : P (e.handleMessages messages).1 := by
    induction messages generalizing e with
    | nil => exact h
    | cons message messages ih => exact ih (hmessage e message h)
  exact List.foldlRecOn _ _ hmessages fun e he client _ => hdisconnect e client he

end Endpoint

namespace Server

open Endpoint

variable {s s' : Server}

/-- **Every event keeps what holds of the channels.** -/
theorem channels_step (h : Channels s.endpoint) {event : Event} (hallowed : s.Allowed event) :
    Channels (s.step event).endpoint := by
  cases event with
  | openChannel channelType => exact channels_openChannel h channelType
  | closeChannel id => exact channels_closeChannel h id
  | setDefaultChannel id => exact ⟨h.agree, h.nodup, h.available, h.small⟩
  | send client id payload => exact h.of_keeps (keeps_sendPayloadOn s.endpoint client id payload)
  | broadcast id payload => exact h.of_keeps (keeps_broadcastPayloadOn s.endpoint id payload)
  | disconnectClient client => exact h.of_keeps (keeps_disconnectClient s.endpoint client)
  | update messages reports =>
    exact updateSyncServer_keeps h (fun e acked he => channels_handleConnection he .new acked)
      (fun e client he => he.of_keeps (keeps_disconnectClient e client))
      (fun e m n he => ⟨he.agree, he.nodup, he.available, he.small⟩) messages reports
  | change client change => exact h.of_keeps (keeps_change s.endpoint client change)
  | shuffle clients openedChannels =>
    obtain ⟨hclients, hopened⟩ := hallowed
    refine ⟨fun p hp q hq => h.agree p (hopened.mem_iff.mp hp) q (hclients.mem_iff.mp hq), ?_, fun id havailable => ?_, ?_⟩
    · exact (hopened.map Prod.fst).nodup_iff.mpr h.nodup
    · obtain ⟨hsmall, hnot⟩ := h.available id havailable
      exact ⟨hsmall, fun hmem => hnot ((hopened.map Prod.fst).mem_iff.mp hmem)⟩
    · exact fun id hmem => h.small id ((hopened.map Prod.fst).mem_iff.mp hmem)

theorem Reachable.channels (h : Reachable s) : Channels s.endpoint := by
  refine @Reached.invariant _ _ _ _ _ (fun s : Server => Channels s.endpoint) _ h ?_ fun s s' event hinv hallowed hhappens => ?_
  · rintro _ rfl
    exact channels_new
  · rw [← hhappens]
    exact channels_step hinv hallowed

/-- **The channels of the endpoint are those of its clients**, in every run: a channel that is open has one of
the first 255 ids, which is not available, and is open for every client with its type. A message that is sent to
all clients on it is given to them in their order, up to the first one that has no room or no task for it; the error
is that of this client. -/
theorem channels_agree (h : Reachable s) (id : ChannelId) (channelType : ChannelType)
    (hopen : (id, channelType) ∈ s.endpoint.openedChannels) (payload : Bytes) :
    id.toNat < 255 ∧ s.endpoint.availableChannelIds id = false ∧
    (∀ q ∈ s.endpoint.clients, ∃ channel, q.2.channel id = some channel ∧ channel.channelType = channelType) ∧
    ∃ before after, s.endpoint.clients = before ++ after ∧
      (s.endpoint.broadcastPayloadOn id payload).1.clients =
        before.map (fun q => (q.1, (q.2.sendPayload payload id).1)) ++ after ∧
      (∀ q ∈ before, q.2.Takes id ∧ (q.2.sendPayload payload id).2 = .ok ()) ∧
      ((after = [] ∧ (s.endpoint.broadcastPayloadOn id payload).2 = .ok ()) ∨
        ∃ q rest err, after = q :: rest ∧ ¬ q.2.Takes id ∧ (q.2.sendPayload payload id).2 = .error err ∧
          (s.endpoint.broadcastPayloadOn id payload).2 = .error err ∧ (err = .FullQueue ∨ err = .InternalChannelClosed)) := by
  have hchannels := h.channels
  have hopened : s.endpoint.Opened id := List.mem_map_of_mem hopen
  have htype := hchannels.agree _ hopen
  refine ⟨hchannels.small id hopened, ?_, fun q hq => Option.map_eq_some_iff.mp (htype q hq), ?_⟩
  · rw [← Bool.not_eq_true]
    exact fun havailable => (hchannels.available id havailable).2 hopened
  · have hsent : ∀ q ∈ s.endpoint.clients, (q.2.sendPayload payload id).2 = .ok () → q.2.Takes id := by
      intro q hq hok
      rcases ClientConnection.sendPayload_of_typeOf payload (htype q hq) with ⟨htakes, -⟩ | ⟨-, -, err, herr, -⟩
      · exact htakes
      · rw [herr] at hok
        cases hok
    unfold broadcastPayloadOn
    dsimp only
    rcases tryEach_spec (f := ClientConnection.sendPayload payload id) s.endpoint.clients with
      ⟨heq, hall⟩ | ⟨before, q, after, err, hclients, hbefore, herr, heq⟩
    · rw [heq]
      exact ⟨s.endpoint.clients, [], (List.append_nil _).symm, (List.append_nil _).symm,
        fun q hq => ⟨hsent q hq (hall q hq), hall q hq⟩, .inl ⟨rfl, rfl⟩⟩
    · rw [heq]
      have hq : q ∈ s.endpoint.clients := by
        rw [hclients]
        exact List.mem_append_right _ List.mem_cons_self
      rcases ClientConnection.sendPayload_of_typeOf payload (htype q hq) with
        ⟨-, hok⟩ | ⟨hnot, hsame, err', herr', hor⟩
      · rw [herr] at hok
        cases hok
      · rw [herr', Except.error.injEq] at herr
        subst herr
        refine ⟨before, q :: after, hclients, by rw [hsame], fun q' hq' => ?_,
          .inr ⟨q, after, err', rfl, hnot, herr', rfl, hor⟩⟩
        exact ⟨hsent q' (by rw [hclients]; exact List.mem_append_left _ hq') (hbefore q' hq'), hbefore q' hq'⟩

/-- The server of the game, with one client. -/
def gameServer : Server :=
  ((((({ endpoint := .new, events := [] } : Server).step (.openChannel .Unreliable)).step (.openChannel .Unreliable)).step
    (.openChannel .OrderedReliable)).step (.openChannel .OrderedReliable)).step (.update [.ClientConnected true] fun _ => 0)

theorem reachable_gameServer : Reachable gameServer :=
  .step (.update [.ClientConnected true] fun _ => 0)
    (.step (.openChannel .OrderedReliable)
      (.step (.openChannel .OrderedReliable)
        (.step (.openChannel .Unreliable) (.step (.openChannel .Unreliable) (.start rfl) trivial rfl) trivial rfl)
        trivial rfl)
      trivial rfl)
    trivial rfl

theorem channels_agree_gameServer :
    gameServer.endpoint.clients.length = 1 ∧ (2, .OrderedReliable) ∈ gameServer.endpoint.openedChannels ∧
      gameServer.endpoint.availableChannelIds 2 = false :=
  ⟨by decide, by decide, (channels_agree reachable_gameServer 2 .OrderedReliable (by decide) []).2.1⟩

/-! ### Ids of channels -/

/-- No client refuses to open or to close a channel. -/
def Willing (s : Server) (event : Event) : Prop :=
  s.Allowed event ∧
    match event with
    | .openChannel channelType =>
      (∃ id, (s.endpoint.openChannel channelType).2 = .ok id) ∨
        (s.endpoint.openChannel channelType).2 = .error .MaxChannelsCountReached
    | .closeChannel id =>
      (s.endpoint.closeChannel id).2 = .ok () ∨ (s.endpoint.closeChannel id).2 = .error (.UnknownChannel id)
    | _ => True

/-- What holds of the ids, as long as no client refuses. -/
structure Ids (e : Endpoint) : Prop where
  /-- An id that is not available is that of an open channel. -/
  complete : ∀ id : ChannelId, id.toNat < 255 → e.availableChannelIds id = false → e.Opened id
  /-- A client has no other channels. -/
  strays : ∀ q ∈ e.clients, ∀ id, q.2.typeOf id ≠ none → e.Opened id

theorem Ids.of_keeps {e e' : Endpoint} (h : Ids e) (hkeeps : Keeps e e') : Ids e' := by
  rw [hkeeps.same]
  refine ⟨h.complete, fun q hq id htype => ?_⟩
  obtain ⟨c, hc, hsame⟩ := hkeeps.types q hq
  rw [hsame] at htype
  exact h.strays _ hc id htype

theorem ids_openChannel {e : Endpoint} (h : Ids e) {channelType : ChannelType}
    (hwilling : (∃ id, (e.openChannel channelType).2 = .ok id) ∨
      (e.openChannel channelType).2 = .error .MaxChannelsCountReached) : Ids (e.openChannel channelType).1 := by
  unfold openChannel at hwilling ⊢
  split
  · exact h
  · next id hpop =>
    rw [hpop] at hwilling
    unfold createChannel at hwilling ⊢
    dsimp only at hwilling ⊢
    cases hcreated : (tryEach (fun c => c.createChannel id channelType) e.clients).2 with
    | ok =>
      dsimp only
      refine ⟨fun id' hsmall h' => ?_, fun q hq id' htype => ?_⟩
      · dsimp only at h'
        rw [Function.update_apply] at h'
        by_cases hid : id' = id
        · exact hid ▸ List.mem_cons_self
        · rw [if_neg hid] at h'
          exact List.mem_cons_of_mem _ (opened_filter_ne.mpr ⟨h.complete id' hsmall h', hid⟩)
      · by_cases hid : id' = id
        · exact hid ▸ List.mem_cons_self
        · obtain ⟨c, hc, hcreated⟩ := mem_tryEach_ok hcreated hq
          have hsame := ClientConnection.channel_createChannel_of_ne c channelType hid
          rw [hcreated] at hsame
          unfold ClientConnection.typeOf at htype
          rw [hsame] at htype
          exact List.mem_cons_of_mem _ (opened_filter_ne.mpr ⟨h.strays _ hc id' htype, hid⟩)
    | error err =>
      -- a client refuses with other errors
      rw [hcreated] at hwilling
      obtain ⟨q, -, herr⟩ := exists_of_tryEach_error hcreated
      rcases hwilling with ⟨id', hid'⟩ | hmax
      · cases hid'
      · rw [Except.error.inj hmax] at herr
        rcases ClientConnection.createChannel_error herr with heq | heq <;> cases heq

theorem ids_closeChannel {e : Endpoint} (hchannels : Channels e) (h : Ids e) {id : ChannelId}
    (hwilling : (e.closeChannel id).2 = .ok () ∨ (e.closeChannel id).2 = .error (.UnknownChannel id)) :
    Ids (e.closeChannel id).1 := by
  unfold closeChannel at hwilling ⊢
  split
  · next hopen =>
    rw [if_pos hopen] at hwilling
    dsimp only at hwilling ⊢
    cases hclosed : (tryEach (fun c => c.closeChannel id) e.clients).2 with
    | ok =>
      dsimp only
      refine ⟨fun id' hsmall h' => ?_, fun q hq id' htype => ?_⟩
      · dsimp only at h'
        rw [Function.update_apply] at h'
        by_cases hid : id' = id
        · rw [if_pos hid] at h'
          cases h'
        · rw [if_neg hid] at h'
          exact opened_filter_ne.mpr ⟨h.complete id' hsmall h', hid⟩
      · obtain ⟨c, hc, hclosed⟩ := mem_tryEach_ok hclosed hq
        unfold ClientConnection.typeOf at htype
        by_cases hid : id' = id
        · have hnone := ClientConnection.channel_closeChannel_self c id
          rw [hclosed] at hnone
          rw [hid, hnone] at htype
          exact (htype rfl).elim
        · have hsame := ClientConnection.channel_closeChannel_of_ne c hid
          rw [hclosed] at hsame
          rw [hsame] at htype
          exact opened_filter_ne.mpr ⟨h.strays _ hc id' htype, hid⟩
    | error err =>
      -- the channel is open for each client, so its task has ended
      rw [hclosed] at hwilling
      obtain ⟨q, hq, herr⟩ := exists_of_tryEach_error hclosed
      obtain ⟨p, hp, rfl⟩ := List.mem_map.mp hopen
      have hended := ClientConnection.closeChannel_of_typeOf (hchannels.agree p hp q hq) herr
      subst hended
      rcases hwilling with hok | hunknown
      · cases hok
      · cases hunknown
  · exact h

theorem ids_handleConnection {e : Endpoint} (hchannels : Channels e) (h : Ids e) (acked : Bool) :
    Ids (e.handleConnection .new acked).1 := by
  unfold handleConnection
  split
  · exact h
  · next c hcreated =>
    dsimp only
    split
    · refine ⟨h.complete, fun q hq id htype => ?_⟩
      rcases List.mem_cons.mp hq with rfl | hq
      · by_contra hclosed
        unfold ClientConnection.typeOf at htype
        rw [(createAll_spec hchannels.nodup hcreated).2 id hclosed] at htype
        exact htype rfl
      · exact h.strays q hq id htype
    · exact ⟨h.complete, h.strays⟩

theorem ids_new : Ids .new where
  complete id hsmall h := by
    have htrue : Endpoint.new.availableChannelIds id = true := decide_eq_true hsmall
    rw [htrue] at h
    cases h
  strays _ hq := (List.not_mem_nil hq).elim

/-- **An event keeps what holds of the ids** if no client refuses. -/
theorem ids_step (hchannels : Channels s.endpoint) (h : Ids s.endpoint) {event : Event} (hwilling : s.Willing event) :
    Ids (s.step event).endpoint := by
  obtain ⟨hallowed, hwilling⟩ := hwilling
  cases event with
  | openChannel channelType => exact ids_openChannel h hwilling
  | closeChannel id => exact ids_closeChannel hchannels h hwilling
  | setDefaultChannel id => exact ⟨h.complete, h.strays⟩
  | send client id payload => exact h.of_keeps (keeps_sendPayloadOn s.endpoint client id payload)
  | broadcast id payload => exact h.of_keeps (keeps_broadcastPayloadOn s.endpoint id payload)
  | disconnectClient client => exact h.of_keeps (keeps_disconnectClient s.endpoint client)
  | update messages reports =>
    refine (updateSyncServer_keeps (P := fun e => Channels e ∧ Ids e) ⟨hchannels, h⟩ ?_ ?_ ?_ messages reports).2
    · exact fun e acked he => ⟨channels_handleConnection he.1 .new acked, ids_handleConnection he.1 he.2 acked⟩
    · exact fun e client he => ⟨he.1.of_keeps (keeps_disconnectClient e client),
        he.2.of_keeps (keeps_disconnectClient e client)⟩
    · exact fun e m n he => ⟨⟨he.1.agree, he.1.nodup, he.1.available, he.1.small⟩, ⟨he.2.complete, he.2.strays⟩⟩
  | change client change => exact h.of_keeps (keeps_change s.endpoint client change)
  | shuffle clients openedChannels =>
    obtain ⟨hclients, hopened⟩ := hallowed
    refine ⟨fun id hsmall hnot => ?_, fun q hq id htype => ?_⟩
    · exact (hopened.map Prod.fst).mem_iff.mpr (h.complete id hsmall hnot)
    · exact (hopened.map Prod.fst).mem_iff.mpr (h.strays q (hclients.mem_iff.mp hq) id htype)

theorem popFirst_eq_none {available : ChannelId → Bool} : popFirst available = none ↔ ∀ id, available id = false := by
  constructor
  · intro hnone id
    rw [← Bool.not_eq_true]
    intro htrue
    obtain ⟨id', hid'⟩ := popFirst_isSome htrue
    rw [hnone] at hid'
    cases hid'
  · intro hall
    refine List.find?_eq_none.mpr fun id _ => ?_
    rw [hall id]
    exact Bool.false_ne_true

/-- All channels are open if there are as many as there can be. -/
theorem length_eq_iff {e : Endpoint} (h : Channels e) :
    e.openedChannels.length = 255 ↔ ∀ id : ChannelId, id.toNat < 255 → e.Opened id := by
  let ids := ((e.openedChannels.map Prod.fst).map UInt8.toNat).toFinset
  have hcard : ids.card = e.openedChannels.length := by
    rw [List.toFinset_card_of_nodup (h.nodup.map fun _ _ heq => UInt8.toNat_inj.mp heq), List.length_map, List.length_map]
  have hmem : ∀ id : ChannelId, id.toNat ∈ ids ↔ e.Opened id := by
    intro id
    rw [List.mem_toFinset, List.mem_map]
    refine ⟨fun ⟨id', hid', heq⟩ => UInt8.toNat_inj.mp heq ▸ hid', fun hid => ⟨id, hid, rfl⟩⟩
  have hsubset : ids ⊆ Finset.range 255 := by
    intro n hn
    obtain ⟨id, hid, rfl⟩ := List.mem_map.mp (List.mem_toFinset.mp hn)
    exact Finset.mem_range.mpr (h.small id hid)
  constructor
  · intro hlength id hsmall
    have heq := Finset.eq_of_subset_of_card_le hsubset (by rw [hcard, hlength, Finset.card_range])
    rw [← hmem, heq]
    exact Finset.mem_range.mpr hsmall
  · intro hall
    have heq : ids = Finset.range 255 := by
      refine Finset.Subset.antisymm hsubset fun n hn => ?_
      have hlt := Finset.mem_range.mp hn
      have htoNat : (UInt8.ofNat n).toNat = n := by
        rw [UInt8.toNat_ofNat']
        exact Nat.mod_eq_of_lt (by omega)
      rw [← htoNat, hmem]
      exact hall _ (by omega)
    rw [← hcard, heq, Finset.card_range]

/-- **The ids are all accounted for**, in every run in which no client refuses a channel: each of the first
255 is either available or that of an open channel, a client has just the channels that are open, and so
another channel can be opened unless all 255 are. -/
theorem ids_complete
    (h : Reached (· = ⟨.new, []⟩) Willing (fun s event s' => s.step event = s') s) :
    (∀ id : ChannelId, id.toNat < 255 → (s.endpoint.availableChannelIds id = true ↔ ¬ s.endpoint.Opened id)) ∧
    (∀ q ∈ s.endpoint.clients, ∀ id, q.2.typeOf id ≠ none ↔ s.endpoint.Opened id) ∧
    (popFirst s.endpoint.availableChannelIds = none ↔ s.endpoint.openedChannels.length = 255) := by
  have hinv : Channels s.endpoint ∧ Ids s.endpoint := by
    refine @Reached.invariant _ _ _ _ _ (fun s : Server => Channels s.endpoint ∧ Ids s.endpoint) _ h ?_ fun s s' event hinv hallowed hhappens => ?_
    · rintro _ rfl
      exact ⟨channels_new, ids_new⟩
    · rw [← hhappens]
      exact ⟨channels_step hinv.1 hallowed.1, ids_step hinv.1 hinv.2 hallowed⟩
  obtain ⟨hchannels, hids⟩ := hinv
  have havailable : ∀ id : ChannelId, id.toNat < 255 →
      (s.endpoint.availableChannelIds id = true ↔ ¬ s.endpoint.Opened id) := by
    intro id hsmall
    refine ⟨fun h => (hchannels.available id h).2, fun hnot => ?_⟩
    by_contra hfalse
    exact hnot (hids.complete id hsmall (by simpa using hfalse))
  refine ⟨havailable, fun q hq id => ⟨hids.strays q hq id, fun hopen => ?_⟩, ?_⟩
  · obtain ⟨p, hp, rfl⟩ := List.mem_map.mp hopen
    rw [hchannels.agree p hp q hq]
    exact Option.some_ne_none _
  · rw [popFirst_eq_none, length_eq_iff hchannels]
    refine ⟨fun hnone id hsmall => ?_, fun hall id => ?_⟩
    · by_contra hnot
      exact absurd ((havailable id hsmall).mpr hnot) (by simp [hnone id])
    · by_contra hfalse
      obtain ⟨hsmall, hnot⟩ := hchannels.available id (by simpa using hfalse)
      exact hnot (hall id hsmall)

theorem ids_complete_gameServer :
    gameServer.endpoint.Opened 3 ∧ (gameServer.endpoint.availableChannelIds 4 = true ↔ ¬ gameServer.endpoint.Opened 4) := by
  refine ⟨by unfold Opened; decide, (ids_complete ?_).1 4 (by decide)⟩
  exact .step (.update [.ClientConnected true] fun _ => 0)
    (.step (.openChannel .OrderedReliable)
      (.step (.openChannel .OrderedReliable)
        (.step (.openChannel .Unreliable)
          (.step (.openChannel .Unreliable) (.start rfl) ⟨trivial, .inl ⟨0, rfl⟩⟩ rfl) ⟨trivial, .inl ⟨1, rfl⟩⟩ rfl)
        ⟨trivial, .inl ⟨2, rfl⟩⟩ rfl)
      ⟨trivial, .inl ⟨3, rfl⟩⟩ rfl)
    ⟨trivial, trivial⟩ rfl

/-- **A client is accepted** if and only if no more than 100 channels are open, and it still waits. -/
theorem handleConnection_ok_iff (e : Endpoint) (acked : Bool) :
    (∃ client, (e.handleConnection .new acked).2 = .ok client) ↔
      e.openedChannels.length ≤ DEFAULT_INTERNAL_MESSAGE_CHANNEL_SIZE ∧ acked = true := by
  have hall := createAll_ok_iff e.openedChannels .new rfl
  have hroom : e.openedChannels.length ≤ DEFAULT_INTERNAL_MESSAGE_CHANNEL_SIZE ↔
      ∃ c', createAll .new e.openedChannels = .ok c' := by
    rw [hall]
    refine ⟨fun hle => .inr (by rw [show ClientConnection.new.toChannels = 0 from rfl, Nat.zero_add]; exact hle), ?_⟩
    rintro (hnil | hle)
    · rw [hnil]
      exact Nat.zero_le _
    · rwa [show ClientConnection.new.toChannels = 0 from rfl, Nat.zero_add] at hle
  rw [hroom]
  unfold handleConnection
  rcases createAll .new e.openedChannels with err | c
  · simp
  · cases acked <;> simp

/-! ### Clients -/

/-- The client that has connected. -/
def connectedClient : ServerEvent → Option ClientId
  | .ConnectionEvent client => some client
  | .ConnectionLostEvent _ => none

/-- What was told of a client. -/
def told (events : List ServerEvent) (client : ClientId) : List ServerEvent := events.filter fun event => event.client = client

/-- What holds of the clients in every run. -/
structure Sessions (e : Endpoint) (events : List ServerEvent) : Prop where
  /-- A client is there once. -/
  nodup : (e.clients.map Prod.fst).Nodup
  /-- It has connected, and is not lost. -/
  current : ∀ client ∈ e.clients.map Prod.fst, told events client = [.ConnectionEvent client]
  /-- Every client has connected, and may then be lost. -/
  session : ∀ client, told events client <+: [.ConnectionEvent client, .ConnectionLostEvent client]
  /-- Nothing was told of clients that are to come. -/
  unborn : ∀ client, e.clientIdGen < client → told events client = []
  /-- The clients have connected in the order of their ids. -/
  increasing : (events.filterMap connectedClient).Pairwise (· < ·)
  /-- They have been counted. -/
  count : e.connectCount = (events.filterMap connectedClient).length

theorem told_append (events more : List ServerEvent) (client : ClientId) :
    told (events ++ more) client = told events client ++ told more client := List.filter_append _ _

theorem told_self (event : ServerEvent) : told [event] event.client = [event] := by simp [told]

theorem told_of_ne (event : ServerEvent) {client : ClientId} (h : event.client ≠ client) : told [event] client = [] := by
  simp [told, h]

theorem mem_told {events : List ServerEvent} {client : ClientId} (h : client ∈ events.filterMap connectedClient) :
    .ConnectionEvent client ∈ told events client := by
  obtain ⟨event, hevent, hclient⟩ := List.mem_filterMap.mp h
  cases event with
  | ConnectionEvent c =>
    cases hclient
    exact List.mem_filter.mpr ⟨hevent, decide_eq_true rfl⟩
  | ConnectionLostEvent c => cases hclient

theorem sessions_new : Sessions .new [] where
  nodup := List.nodup_nil
  current _ h := (List.not_mem_nil h).elim
  session _ := List.nil_prefix
  unborn _ _ := rfl
  increasing := List.Pairwise.nil
  count := rfl

variable {e : Endpoint} {events : List ServerEvent}

/-- A client that is there has an id that was given. -/
theorem Sessions.le (h : Sessions e events) {client : ClientId} (hmem : client ∈ e.clients.map Prod.fst) :
    client ≤ e.clientIdGen := by
  by_contra hlt
  have hnone := h.unborn client (Nat.lt_of_not_le hlt)
  rw [h.current client hmem] at hnone
  cases hnone

/-- Clients may go without being told of. -/
theorem Sessions.of_sublist (h : Sessions e events) {e' : Endpoint}
    (hsub : List.Subperm (e'.clients.map Prod.fst) (e.clients.map Prod.fst)) (hgen : e.clientIdGen ≤ e'.clientIdGen)
    (hcount : e'.connectCount = e.connectCount) : Sessions e' events where
  nodup := by
    obtain ⟨l, hperm, hsub⟩ := hsub
    exact hperm.nodup_iff.mp (hsub.nodup h.nodup)
  current client hmem := h.current client (hsub.subset hmem)
  session := h.session
  unborn client hlt := h.unborn client (Nat.lt_of_le_of_lt hgen hlt)
  increasing := h.increasing
  count := hcount.trans h.count

/-- A client connects. -/
theorem Sessions.connect (h : Sessions e events) (c : ClientConnection) :
    Sessions { e with
      clientIdGen := e.clientIdGen + 1
      clients := (e.clientIdGen + 1, c) :: e.clients
      connectCount := e.connectCount + 1 } (events ++ [.ConnectionEvent (e.clientIdGen + 1)]) := by
  have hunborn := h.unborn (e.clientIdGen + 1) (Nat.lt_succ_self _)
  have htold : ∀ client, client ≠ e.clientIdGen + 1 →
      told (events ++ [.ConnectionEvent (e.clientIdGen + 1)]) client = told events client := by
    intro client hne
    rw [told_append, told_of_ne (.ConnectionEvent _) hne.symm, List.append_nil]
  have htoldNew : told (events ++ [.ConnectionEvent (e.clientIdGen + 1)]) (e.clientIdGen + 1) =
      [.ConnectionEvent (e.clientIdGen + 1)] := by
    rw [told_append, hunborn]
    exact told_self (.ConnectionEvent (e.clientIdGen + 1))
  refine ⟨?_, fun client hmem => ?_, fun client => ?_, fun client hlt => ?_, ?_, ?_⟩
  · exact List.nodup_cons.mpr ⟨fun hmem => Nat.not_succ_le_self _ (h.le hmem), h.nodup⟩
  · rcases List.mem_cons.mp hmem with rfl | hmem
    · exact htoldNew
    · rw [htold client fun heq => Nat.not_succ_le_self _ (heq ▸ h.le hmem)]
      exact h.current client hmem
  · by_cases heq : client = e.clientIdGen + 1
    · subst heq
      rw [htoldNew]
      exact List.prefix_append _ [_]
    · rw [htold client heq]
      exact h.session client
  · dsimp only at hlt
    rw [htold client (Nat.ne_of_gt hlt)]
    exact h.unborn client (Nat.lt_of_succ_lt hlt)
  · rw [List.filterMap_append, List.pairwise_append]
    refine ⟨h.increasing, List.pairwise_singleton _ _, fun client hmem client' hmem' => ?_⟩
    have hclient' : client' = e.clientIdGen + 1 := List.mem_singleton.mp hmem'
    by_contra hle
    rw [hclient'] at hle
    have hlt : e.clientIdGen < client := Nat.lt_of_lt_of_le (Nat.lt_succ_self _) (Nat.le_of_not_lt hle)
    exact List.not_mem_nil (h.unborn client hlt ▸ mem_told hmem)
  · rw [List.filterMap_append, List.length_append, ← h.count]
    rfl

/-- A client that is there is lost. -/
theorem Sessions.lose (h : Sessions e events) {client : ClientId} (hmem : client ∈ e.clients.map Prod.fst) (n : ℕ) :
    Sessions { e with clients := e.clients.filter (fun p => p.1 ≠ client), disconnectCount := n }
      (events ++ [.ConnectionLostEvent client]) := by
  have hnone : [ServerEvent.ConnectionLostEvent client].filterMap connectedClient = [] := rfl
  have htold : ∀ other, other ≠ client → told (events ++ [.ConnectionLostEvent client]) other = told events other := by
    intro other hne
    rw [told_append, told_of_ne (.ConnectionLostEvent _) hne.symm, List.append_nil]
  refine ⟨?_, fun other hother => ?_, fun other => ?_, fun other hlt => ?_, ?_, ?_⟩
  · exact (List.filter_sublist.map Prod.fst).nodup h.nodup
  · obtain ⟨hother, hne⟩ : other ∈ e.clients.map Prod.fst ∧ other ≠ client := by
      simp only [List.mem_map, List.mem_filter, decide_eq_true_eq] at hother
      obtain ⟨p, ⟨hp, hne⟩, rfl⟩ := hother
      exact ⟨List.mem_map_of_mem hp, hne⟩
    rw [htold other hne]
    exact h.current other hother
  · by_cases heq : other = client
    · subst heq
      have hself : told [.ConnectionLostEvent other] other = [.ConnectionLostEvent other] :=
        told_self (.ConnectionLostEvent other)
      rw [told_append, h.current other hmem, hself]
      exact List.prefix_refl _
    · rw [htold other heq]
      exact h.session other
  · rw [htold other fun heq => Nat.not_lt.mpr (h.le hmem) (heq ▸ hlt)]
    exact h.unborn other hlt
  · rw [List.filterMap_append, hnone, List.append_nil]
    exact h.increasing
  · rw [List.filterMap_append, hnone, List.append_nil]
    exact h.count

theorem Sessions.handleMessage (h : Sessions e events) (message : ServerAsyncMessage) :
    Sessions (e.handleMessage message).1 (events ++ (e.handleMessage message).2) := by
  cases message with
  | ClientConnected acked =>
    unfold Endpoint.handleMessage handleConnection
    dsimp only
    rcases createAll .new e.openedChannels with err | c
    · rw [List.append_nil]
      exact h
    · cases acked with
      | true => exact h.connect c
      | false =>
        show Sessions { e with clientIdGen := e.clientIdGen + 1 } (events ++ [])
        rw [List.append_nil]
        exact h.of_sublist (List.Perm.refl _).subperm (Nat.le_succ _) rfl
  | ClientConnectionClosed client =>
    unfold Endpoint.handleMessage
    dsimp only
    split
    · next hmem =>
      rw [disconnectClient_eq]
      exact h.lose hmem _
    · rw [List.append_nil]
      exact h

theorem Sessions.handleMessages (h : Sessions e events) (messages : List ServerAsyncMessage) :
    Sessions (e.handleMessages messages).1 (events ++ (e.handleMessages messages).2) := by
  induction messages generalizing e events with
  | nil =>
    rw [Endpoint.handleMessages, List.append_nil]
    exact h
  | cons message messages ih =>
    rw [Endpoint.handleMessages, ← List.append_assoc]
    exact ih (h.handleMessage message)

/-- The clients that are lost are all there, and are lost one after the other. -/
theorem Sessions.loseAll (h : Sessions e events) {lost : List ClientId} (hsub : lost.Sublist (e.clients.map Prod.fst)) :
    Sessions (lost.foldl (fun e client => (e.disconnectClient client).1) e) (events ++ lost.map .ConnectionLostEvent) := by
  induction lost generalizing e events with
  | nil =>
    rw [List.map_nil, List.append_nil]
    exact h
  | cons client lost ih =>
    have hnodup := hsub.nodup h.nodup
    have hlost := h.lose (hsub.subset List.mem_cons_self) e.disconnectCount
    rw [List.foldl_cons, disconnectClient_eq, List.map_cons, List.append_cons]
    refine ih hlost ?_
    -- the other clients are still there
    have hfilter : lost.filter (fun other => other ≠ client) = lost :=
      List.filter_eq_self.mpr fun other hother => decide_eq_true fun heq => (List.nodup_cons.mp hnodup).1 (heq ▸ hother)
    have hmap : (e.clients.filter fun p => p.1 ≠ client).map Prod.fst =
        (e.clients.map Prod.fst).filter fun other => other ≠ client := by
      rw [List.filter_map]
      rfl
    rw [hmap, ← hfilter]
    exact ((List.sublist_cons_self client lost).trans hsub).filter _

theorem Sessions.updateSyncServer (h : Sessions e events) (messages : List ServerAsyncMessage) (reports : ClientId → ℕ) :
    Sessions (e.updateSyncServer messages reports).1 (events ++ (e.updateSyncServer messages reports).2) := by
  have hsub : (((e.handleMessages messages).1.clients.map Prod.fst).filter fun client => 0 < reports client).Sublist
      ((e.handleMessages messages).1.clients.map Prod.fst) := List.filter_sublist
  have hlost := (h.handleMessages messages).loseAll hsub
  rw [List.append_assoc] at hlost
  exact hlost

/-- The clients are the same, though not their channels. -/
structure SameClients (e e' : Endpoint) : Prop where
  /-- They are the same. -/
  clients : e'.clients.map Prod.fst = e.clients.map Prod.fst
  /-- No id is given. -/
  gen : e'.clientIdGen = e.clientIdGen
  /-- None is counted. -/
  count : e'.connectCount = e.connectCount

theorem Sessions.of_same (h : Sessions e events) {e' : Endpoint} (hsame : SameClients e e') : Sessions e' events :=
  h.of_sublist (hsame.clients ▸ (List.Perm.refl _).subperm) (Nat.le_of_eq hsame.gen.symm) hsame.count

theorem sameClients_openChannel (e : Endpoint) (channelType : ChannelType) :
    SameClients e (e.openChannel channelType).1 := by
  unfold openChannel
  split
  · exact ⟨rfl, rfl, rfl⟩
  · next id _ =>
    unfold createChannel
    dsimp only
    cases (tryEach (fun c => c.createChannel id channelType) e.clients).2 with
    | ok => exact ⟨map_fst_tryEach _, rfl, rfl⟩
    | error err => exact ⟨map_fst_tryEach _, rfl, rfl⟩

theorem sameClients_closeChannel (e : Endpoint) (id : ChannelId) : SameClients e (e.closeChannel id).1 := by
  unfold closeChannel
  split
  · dsimp only
    cases (tryEach (fun c => c.closeChannel id) e.clients).2 with
    | ok => exact ⟨map_fst_tryEach _, rfl, rfl⟩
    | error err => exact ⟨map_fst_tryEach _, rfl, rfl⟩
  · exact ⟨rfl, rfl, rfl⟩

theorem map_fst_map_ite (l : List (ClientId × ClientConnection)) (client : ClientId)
    (f : ClientId × ClientConnection → ClientConnection) :
    (l.map fun p => if p.1 = client then (p.1, f p) else p).map Prod.fst = l.map Prod.fst := by
  rw [List.map_map]
  refine List.map_congr_left fun p _ => ?_
  dsimp only [Function.comp]
  split <;> rfl

theorem sameClients_sendPayloadOn (e : Endpoint) (client : ClientId) (id : ChannelId) (payload : Bytes) :
    SameClients e (e.sendPayloadOn client id payload).1 := by
  unfold sendPayloadOn
  split
  · next p _ => exact ⟨map_fst_map_ite e.clients client fun _ => (p.2.sendPayload payload id).1, rfl, rfl⟩
  · exact ⟨rfl, rfl, rfl⟩

/-- **Every event keeps what holds of the clients.** -/
theorem sessions_step (h : Sessions s.endpoint s.events) {event : Event} (hallowed : s.Allowed event) :
    Sessions (s.step event).endpoint (s.step event).events := by
  cases event with
  | openChannel channelType => exact h.of_same (sameClients_openChannel s.endpoint channelType)
  | closeChannel id => exact h.of_same (sameClients_closeChannel s.endpoint id)
  | setDefaultChannel id => exact h.of_same ⟨rfl, rfl, rfl⟩
  | send client id payload => exact h.of_same (sameClients_sendPayloadOn s.endpoint client id payload)
  | broadcast id payload => exact h.of_same ⟨map_fst_tryEach _, rfl, rfl⟩
  | disconnectClient client =>
    have heq := disconnectClient_eq s.endpoint client
    show Sessions (s.endpoint.disconnectClient client).1 s.events
    rw [heq]
    exact h.of_sublist (List.filter_sublist.map Prod.fst).subperm (Nat.le_refl _) rfl
  | update messages reports => exact h.updateSyncServer messages reports
  | change client change => exact h.of_same ⟨map_fst_map_ite s.endpoint.clients client fun p => p.2.change change, rfl, rfl⟩
  | shuffle clients openedChannels => exact h.of_sublist (hallowed.1.map Prod.fst).subperm (Nat.le_refl _) rfl

/-- **The events of the clients**, in every run: of each client it is told that it has connected, and then
perhaps that it is lost, and nothing else; of one that is there, that it has connected. The clients connect
in the order of their ids, none of which is given twice, and are counted. -/
theorem sessions (h : Reachable s) :
    (∀ client, told s.events client <+: [.ConnectionEvent client, .ConnectionLostEvent client]) ∧
    (∀ client ∈ s.endpoint.clients.map Prod.fst, told s.events client = [.ConnectionEvent client]) ∧
    (s.events.filterMap connectedClient).Pairwise (· < ·) ∧
    s.endpoint.connectCount = (s.events.filterMap connectedClient).length := by
  have hinv : Sessions s.endpoint s.events := by
    refine @Reached.invariant _ _ _ _ _ (fun s : Server => Sessions s.endpoint s.events) _ h ?_ fun s s' event hinv hallowed hhappens => ?_
    · rintro _ rfl
      exact sessions_new
    · rw [← hhappens]
      exact sessions_step hinv hallowed
  exact ⟨hinv.session, hinv.current, hinv.increasing, hinv.count⟩

theorem sessions_gameServer :
    gameServer.events = [.ConnectionEvent 1] ∧ told gameServer.events 1 <+: [.ConnectionEvent 1, .ConnectionLostEvent 1] :=
  ⟨by decide, (sessions reachable_gameServer).1 1⟩

end Server

end Distgard.Quintet
