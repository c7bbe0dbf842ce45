import Mathlib.Data.Fintype.Basic
import Mathlib.Data.Fintype.OfMap

/-!
# Channels

A connection has up to 256 channels, each of a type that says whether what is sent on it arrives,
and in which order. What is sent goes through queues of bounded length: one for each channel to its
task, and one for all channels from the tasks that read. A configuration lists the channels that
are to be opened first; their ids are their places in the list.
-/

namespace Distgard.Quintet

/-- The bytes of a message. -/
abbrev Bytes := List UInt8

/-- The id of an opened channel. -/
abbrev ChannelId := UInt8

instance : Fintype ChannelId :=
  Fintype.ofEquiv (Fin 256) ⟨UInt8.ofFin, UInt8.toFin, UInt8.toFin_ofFin, UInt8.ofFin_toFin⟩

/-- The id of a client on the server. -/
abbrev ClientId := ℕ

def MAX_CHANNEL_COUNT : ℕ := 256

def CHANNEL_ID_LEN : ℕ := 1

def PROTOCOL_HEADER_LEN : ℕ := CHANNEL_ID_LEN

/-- How many messages wait in a queue at most. -/
def DEFAULT_MESSAGE_QUEUE_SIZE : ℕ := 150

/-- How many requests wait in an internal queue at most. -/
def DEFAULT_INTERNAL_MESSAGE_CHANNEL_SIZE : ℕ := 100

/-- What a channel promises. -/
inductive ChannelType where
  /-- What is sent arrives, and in its order. -/
  | OrderedReliable
  /-- What is sent arrives. -/
  | UnorderedReliable
  /-- What is sent may arrive. -/
  | Unreliable
  deriving DecidableEq

/-- Why an operation is refused. -/
inductive QuintetError where
  /-- There is no such client. -/
  | UnknownClient (id : ClientId)
  /-- The client is disconnected. -/
  | ClientAlreadyDisconnected (id : ClientId)
  /-- The connection is disconnected. -/
  | ConnectionClosed
  /-- It was disconnected before. -/
  | ConnectionAlreadyClosed
  /-- There is no such channel. -/
  | UnknownChannel (id : ChannelId)
  /-- The channel is closed. -/
  | ChannelClosed
  /-- There is no default channel. -/
  | NoDefaultChannel
  /-- All channels are open. -/
  | MaxChannelsCountReached
  /-- The message cannot be written. -/
  | Serialization
  /-- The bytes are no message. -/
  | Deserialization
  /-- The queue is full. -/
  | FullQueue
  /-- Nobody reads the queue any more. -/
  | InternalChannelClosed
  deriving DecidableEq

/-- The channels that are to be opened first. -/
structure ChannelsConfiguration where
  /-- Their types, in the order of their ids. -/
  channels : List ChannelType

namespace ChannelsConfiguration

/-- The configuration by default. -/
def default : ChannelsConfiguration := ⟨[.OrderedReliable]⟩

/-- A configuration of some types. -/
def fromTypes (channelTypes : List ChannelType) : Except QuintetError ChannelsConfiguration :=
  if MAX_CHANNEL_COUNT < channelTypes.length then .error .MaxChannelsCountReached else .ok ⟨channelTypes⟩

/-- Add a channel. -/
def add (config : ChannelsConfiguration) (channelType : ChannelType) : ChannelsConfiguration × Option ChannelId :=
  if config.channels.length < MAX_CHANNEL_COUNT then
    (⟨config.channels ++ [channelType]⟩, some (UInt8.ofNat config.channels.length))
  else
    (config, none)

end ChannelsConfiguration

end Distgard.Quintet
