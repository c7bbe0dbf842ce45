import Distgard.Server
import Distgard.Slots

/-!
# Moving items through a server

In a game with others a click on a slot of a chest changes nothing at the client. It sends a
message that says what the slot is to hold; the server stores that, and sends the message to all
clients, the sender included, who change their own copy of the chest. A message that swaps lets
the server put what was in the slot into the message, and the sender takes that for its mouse. A
message that adds to a stack has been added up by the client, from its own copy; the server
stores the sum whatever the slot holds by now, and the sender empties its mouse.

## The model

Messages between a client and the server arrive in order. A handler stores to the chest first,
and sends the message to all clients afterwards, so that clients can hear of two messages in
another order than that in which they were handled. `saw` remembers what a client saw in the slot
it clicked.

## What is proved

* `chestInvUpdate_eq_act` — what is done to the chests here is what the handler's actions do.
* `chests_conserve` — the items in all chests and mice stay the same as long as a message that
  adds to a stack finds the slot as its client saw it, numbers survive the way through a message,
  and a client waits for the answer to its last click.
* `chests_loseItems` — two clients that add to one stack at the same time lose items.
-/

namespace Distgard

open Lib

/-- Store what a message says to a slot of a chest, and put what was there into the message if it
says so; a slot that does not exist is a panic. -/
def chestInvUpdate (message : Message) (chestReg : HashMap IVec3 ChestInventory) :
    Option (HashMap IVec3 ChestInventory × Message) :=
  let chest := (chestReg.lookup message.otherpos).getD .untouched
  match chest.inv[message.slotIndex]? with
  | some wasthere =>
    some (chestReg.insert message.otherpos (chest.replaceSlot message.slotIndex message.contents),
      if message.bo then { message with x := .ofU32 wasthere.1, y := .ofU32 wasthere.2 } else message)
  | none => none

/-- The slot a message names. -/
def slotOf (message : Message) (chestReg : HashMap IVec3 ChestInventory) : Slot :=
  ((chestReg.lookup message.otherpos).getD .untouched).inv.getD message.slotIndex (0, 0)

/-- What a client keeps. -/
structure ChestClient where
  /-- What the mouse holds. -/
  mouseSlot : Slot
  /-- Its copy of the chests. -/
  chestRegistry : HashMap IVec3 ChestInventory
  /-- Whether the server sends it messages. -/
  ready : Bool
  /-- The messages on their way to the server, oldest first. -/
  toServer : List Message
  /-- The message of this client that its handler has stored and not yet sent to all. -/
  handled : Option Message
  /-- The messages on their way to the client, oldest first. -/
  fromServer : List Message
  /-- What it saw in the slot it clicked last. -/
  saw : Slot

namespace ChestClient

/-- The message for a click on a slot: it adds to a stack of the item in the mouse, and swaps the
slot and the mouse otherwise. -/
def clickMessage (id : Uuid) (pos : IVec3) (e : ℕ) (slot mouseSlot : Slot) : Message :=
  if slot.1 = mouseSlot.1 then
    { messageType := .ChestInvUpdate, x := .finite 0, y := .finite 0, z := .finite 1, rot := .ofU32 slot.1
      info := UInt32.ofNat e, info2 := 0, infof := .ofU32 (slot.2 + mouseSlot.2), goose := id, otherpos := pos
      bo := false }
  else
    { messageType := .ChestInvUpdate, x := .ofU32 slot.1, y := .ofU32 slot.2, z := .finite 1, rot := .ofU32 mouseSlot.1
      info := UInt32.ofNat e, info2 := 0, infof := .ofU32 mouseSlot.2, goose := id, otherpos := pos, bo := true }

/-- A click on a slot of a chest the client has a copy of. -/
def mouseButton (id : Uuid) (pos : IVec3) (e : Fin (ROWLENGTH * 4)) (c : ChestClient) : Option ChestClient :=
  (c.chestRegistry.lookup pos).map fun ch =>
    { c with
      toServer := c.toServer ++ [clickMessage id pos e (ch.inv.getD e (0, 0)) c.mouseSlot]
      saw := ch.inv.getD e (0, 0) }

/-- A message of the server arrives. -/
def receive (id : Uuid) (message : Message) (c : ChestClient) : ChestClient :=
  { c with
    mouseSlot := if message.goose = id ∧ message.z = .finite 1 then (message.x.asU32, message.y.asU32) else c.mouseSlot
    chestRegistry := c.chestRegistry.insert message.otherpos
      (((c.chestRegistry.lookup message.otherpos).getD .untouched).replaceSlot message.slotIndex message.contents) }

end ChestClient

/-- How many of an item there are in all chests. -/
def inChests (item : UInt32) (chestReg : HashMap IVec3 ChestInventory) : ℕ :=
  HashMap.sum (fun chest : ChestInventory => Recipe.total item chest.inv) chestReg

/-- The server's chests, and the clients. -/
structure Exchange where
  /-- The chests of the server. -/
  chestReg : HashMap IVec3 ChestInventory
  /-- Who is connected. -/
  present : Finset Uuid
  /-- The clients. -/
  client : Uuid → ChestClient

/-- What can happen. -/
inductive ExchangeEvent where
  /-- A client clicks a slot. -/
  | click (id : Uuid) (pos : IVec3) (e : Fin (ROWLENGTH * 4))
  /-- The handler of a client stores what its next message says. -/
  | handle (id : Uuid)
  /-- It sends the message to all clients that are ready for messages. -/
  | broadcast (id : Uuid)
  /-- The next message arrives at a client. -/
  | receive (id : Uuid)

namespace Exchange

/-- Change a client. -/
def put (id : Uuid) (c : ChestClient) (s : Exchange) : Exchange := { s with client := Function.update s.client id c }

/-- A client after the handler of `id` has sent its message to all that are ready. -/
def sent (id : Uuid) (message : Message) (s : Exchange) (id' : Uuid) : ChestClient :=
  let c := if id' = id then { s.client id with handled := none } else s.client id'
  if c.ready then { c with fromServer := c.fromServer ++ [message] } else c

/-- What an event does, if it can happen. -/
def happens (s : Exchange) : ExchangeEvent → Option Exchange
  | .click id pos e => if id ∈ s.present then ((s.client id).mouseButton id pos e).map fun c => s.put id c else none
  | .handle id =>
    match (s.client id).handled, (s.client id).toServer with
    | none, message :: rest =>
      if id ∈ s.present then
        (chestInvUpdate { message with goose := id } s.chestReg).map fun r =>
          { s with
            chestReg := r.1
            client := Function.update s.client id { s.client id with toServer := rest, handled := some r.2 } }
      else none
    | _, _ => none
  | .broadcast id =>
    match (s.client id).handled with
    | some message =>
      if id ∈ s.present then
        some { s with client := s.sent id message }
      else none
    | none => none
  | .receive id =>
    match (s.client id).fromServer with
    | message :: rest =>
      if id ∈ s.present then some (s.put id (({ s.client id with fromServer := rest } : ChestClient).receive id message))
      else none
    | [] => none

/-- How many of an item there are in all chests and mice. -/
def total (item : UInt32) (s : Exchange) : ℕ :=
  inChests item s.chestReg + ∑ id ∈ s.present, (s.client id).mouseSlot.of item

/-- All messages have been handled, and have arrived. -/
def Quiet (s : Exchange) : Prop :=
  ∀ id ∈ s.present, (s.client id).toServer = [] ∧ (s.client id).handled = none ∧ (s.client id).fromServer = []

end Exchange

/-- A number that survives the way through a message. -/
def Exact (n : UInt32) : Prop := (Single.ofU32 n).asU32 = n

/-- The answers to its own messages that a client has still to hear of. -/
def ChestClient.answers (id : Uuid) (c : ChestClient) : List Message :=
  c.handled.toList ++ c.fromServer.filter (·.goose = id)

namespace Exchange

/-- A client that clicks is sent messages, has heard of all its own, and sends numbers that
survive; a message that swaps takes numbers out that survive. -/
def Prompt (s : Exchange) : ExchangeEvent → Prop
  | .click id pos e =>
    let slot := (((s.client id).chestRegistry.lookup pos).getD .untouched).inv.getD e (0, 0)
    let mouseSlot := (s.client id).mouseSlot
    (s.client id).ready = true ∧ (s.client id).toServer = [] ∧ (s.client id).answers id = [] ∧
      if slot.1 = mouseSlot.1 then
        slot.2.toNat + mouseSlot.2.toNat < 2 ^ 32 ∧ Exact slot.1 ∧ Exact (slot.2 + mouseSlot.2)
      else Exact mouseSlot.1 ∧ Exact mouseSlot.2
  | .handle id => ∀ message ∈ (s.client id).toServer.head?, message.bo = true →
    Exact (slotOf message s.chestReg).1 ∧ Exact (slotOf message s.chestReg).2
  | .broadcast _ => True
  | .receive _ => True

/-- A message that adds to a stack finds the slot as its client saw it. -/
def Fresh (s : Exchange) : ExchangeEvent → Prop
  | .handle id => ∀ message ∈ (s.client id).toServer.head?, message.bo = false →
    slotOf message s.chestReg = (s.client id).saw
  | _ => True

/-- The condition on an event. -/
def Careful (s : Exchange) (event : ExchangeEvent) : Prop := s.Prompt event ∧ s.Fresh event

instance (n : UInt32) : Decidable (Exact n) := inferInstanceAs (Decidable (_ = _))

instance (s : Exchange) (event : ExchangeEvent) : Decidable (s.Prompt event) :=
  match event with
  | .click _ _ _ => inferInstanceAs (Decidable (_ ∧ _ ∧ _ ∧ @ite _ _ _ (_ ∧ _ ∧ _) (_ ∧ _)))
  | .handle _ => inferInstanceAs (Decidable (∀ message ∈ _, _ → _ ∧ _))
  | .broadcast _ => .isTrue trivial
  | .receive _ => .isTrue trivial

instance (s : Exchange) (event : ExchangeEvent) : Decidable (s.Fresh event) :=
  match event with
  | .click _ _ _ => .isTrue trivial
  | .handle _ => inferInstanceAs (Decidable (∀ message ∈ _, _ → _ = _))
  | .broadcast _ => .isTrue trivial
  | .receive _ => .isTrue trivial

instance (s : Exchange) (event : ExchangeEvent) : Decidable (s.Careful event) := inferInstanceAs (Decidable (_ ∧ _))

-- by name: the identities are a finite type as well, and there are too many of them to try
instance (s : Exchange) : Decidable s.Quiet := Finset.decidableDforallFinset

end Exchange

/-! ### The chests -/

theorem total_untouched (item : UInt32) : Recipe.total item ChestInventory.untouched.inv = 0 := by
  have hzero : ∀ n, Recipe.total item (List.replicate n (0, 0)) = 0 := by
    intro n
    induction n with
    | zero => rfl
    | succ n ih => simp [List.replicate_succ, Recipe.total_cons', ih, Slot.of]
  exact hzero _

/-- Storing a chest replaces what it adds, that of an untouched one if there was none. -/
theorem inChests_insert (item : UInt32) (chestReg : HashMap IVec3 ChestInventory) (pos : IVec3) (chest : ChestInventory) :
    inChests item (chestReg.insert pos chest) + Recipe.total item ((chestReg.lookup pos).getD .untouched).inv =
      inChests item chestReg + Recipe.total item chest.inv := by
  cases hlookup : chestReg.lookup pos with
  | some old => exact HashMap.sum_insert _ chestReg hlookup
  | none =>
    rw [Option.getD_none, total_untouched, Nat.add_zero]
    exact HashMap.sum_insert_of_notMem _ chestReg (Finmap.lookup_eq_none.mp hlookup)

/-- The message with what was in the slot, if it asks for it. -/
def answer (message : Message) (wasthere : Slot) : Message :=
  if message.bo then { message with x := .ofU32 wasthere.1, y := .ofU32 wasthere.2 } else message

/-- **What a handler does to the chests**: what a slot held goes, and what the message says comes. -/
theorem chestInvUpdate_spec {message : Message} {chestReg : HashMap IVec3 ChestInventory}
    {r : HashMap IVec3 ChestInventory × Message} (h : chestInvUpdate message chestReg = some r) :
    r.2 = answer message (slotOf message chestReg) ∧ ∀ item,
      inChests item r.1 + (slotOf message chestReg).of item = inChests item chestReg + message.contents.of item := by
  rw [chestInvUpdate] at h
  cases hslot : ((chestReg.lookup message.otherpos).getD .untouched).inv[message.slotIndex]? with
  | none =>
    simp only [hslot] at h
    cases h
  | some wasthere =>
    have hwas : slotOf message chestReg = wasthere := by rw [slotOf, List.getD_eq_getElem?_getD, hslot, Option.getD_some]
    simp only [hslot, Option.some.injEq] at h
    subst h
    refine ⟨by rw [hwas]; rfl, ?_⟩
    intro item
    have hset := Recipe.total_set (List.getElem?_eq_some_iff.mp hslot).1 item message.contents
    have hinsert := inChests_insert item chestReg message.otherpos
      (((chestReg.lookup message.otherpos).getD .untouched).replaceSlot message.slotIndex message.contents)
    rw [ChestInventory.replaceSlot] at hinsert
    rw [← slotOf] at hset
    simp only at hinsert ⊢
    rw [ChestInventory.replaceSlot]
    omega

/-- What is done to the chests is what the actions of the handler do. -/
theorem chestInvUpdate_eq_act (s : Server) (message : Message) :
    ((Server.act (.openChest message.otherpos) s).bind
        (Server.act (.setChestSlot message.otherpos message.slotIndex message.contents))).map Server.chestReg =
      (chestInvUpdate message s.chestReg).map Prod.fst := by
  set chest := (s.chestReg.lookup message.otherpos).getD .untouched with hchest
  have hopen : ∃ reg, Server.act (.openChest message.otherpos) s = some { s with chestReg := reg } ∧
      reg.lookup message.otherpos = some chest ∧
      ∀ chest', reg.insert message.otherpos chest' = s.chestReg.insert message.otherpos chest' := by
    refine ⟨_, rfl, ?_⟩
    split
    · next hmem =>
      obtain ⟨old, hold⟩ := Finmap.mem_iff.mp hmem
      rw [hchest, hold, Option.getD_some]
      exact ⟨rfl, fun _ => rfl⟩
    · next hnew =>
      rw [hchest, Finmap.lookup_eq_none.mpr hnew, Option.getD_none]
      exact ⟨Finmap.lookup_insert _, fun chest' => Finmap.insert_insert ..⟩
  obtain ⟨reg, hact, hlookup, hinsert⟩ := hopen
  rw [hact, Option.bind_some, Server.act, chestInvUpdate, ← hchest]
  simp only [hlookup]
  by_cases hslot : message.slotIndex < ROWLENGTH * 4
  · rw [if_pos hslot, List.getElem?_eq_getElem (by rw [chest.length_inv]; exact hslot)]
    simp [hinsert]
  · rw [if_neg hslot, List.getElem?_eq_none (by rw [chest.length_inv]; omega)]
    rfl

/-! ### The clients -/

namespace ChestClient

/-- What the mouse of a client holds once it has heard of its own messages. -/
def owed (id : Uuid) (c : ChestClient) : Slot :=
  match c.answers id with
  | [] => c.mouseSlot
  | message :: _ => (message.x.asU32, message.y.asU32)

/-- A message says what the client wants: to swap what its mouse holds, or to add it to what it
saw, and to have the mouse emptied. -/
structure Asked (c : ChestClient) (message : Message) : Prop where
  /-- The mouse is to be replaced. -/
  replaces : message.z = .finite 1
  /-- The contents of a swap. -/
  swap : message.bo = true → message.contents = c.mouseSlot
  /-- The contents of an addition. -/
  add : message.bo = false → message.contents = (c.saw.1, c.saw.2 + c.mouseSlot.2) ∧ c.saw.1 = c.mouseSlot.1 ∧
    c.saw.2.toNat + c.mouseSlot.2.toNat < 2 ^ 32 ∧ (message.x.asU32, message.y.asU32) = (0, 0)

/-- The invariant of a client: at most one of its messages is under way. -/
structure Waits (id : Uuid) (c : ChestClient) : Prop where
  /-- One that has not been handled says what the client wants. -/
  sent : ∀ message ∈ c.toServer, c.toServer = [message] ∧ c.answers id = [] ∧ c.ready = true ∧ c.Asked message
  /-- One that has been stored will come back. -/
  handled : ∀ message, c.handled = some message → message.goose = id ∧ c.ready = true
  /-- There is one answer at most. -/
  one : (c.answers id).length ≤ 1
  /-- An answer replaces the mouse. -/
  replaces : ∀ message ∈ c.answers id, message.z = .finite 1

variable {id : Uuid} {c : ChestClient}

theorem owed_of_nil (h : c.answers id = []) : c.owed id = c.mouseSlot := by rw [owed, h]

theorem owed_of_cons {message : Message} {rest : List Message} (h : c.answers id = message :: rest) :
    c.owed id = (message.x.asU32, message.y.asU32) := by rw [owed, h]

/-- **A click** sends what the client wants. -/
theorem asked_clickMessage {pos : IVec3} {e : ℕ} {slot : Slot}
    (hcareful : if slot.1 = c.mouseSlot.1 then
        slot.2.toNat + c.mouseSlot.2.toNat < 2 ^ 32 ∧ Exact slot.1 ∧ Exact (slot.2 + c.mouseSlot.2)
      else Exact c.mouseSlot.1 ∧ Exact c.mouseSlot.2) (toServer : List Message) :
    ({ c with toServer := toServer, saw := slot } : ChestClient).Asked (clickMessage id pos e slot c.mouseSlot) := by
  rw [clickMessage]
  split at hcareful
  · next hsame =>
    rw [if_pos hsame]
    refine ⟨rfl, fun h => (by cases h), fun _ => ⟨?_, hsame, hcareful.1, rfl⟩⟩
    exact Prod.ext hcareful.2.1 hcareful.2.2
  · next hdiff =>
    rw [if_neg hdiff]
    exact ⟨rfl, fun _ => Prod.ext hcareful.1 hcareful.2, fun h => (by cases h)⟩

theorem answer_replaces {message : Message} (h : message.z = .finite 1) (wasthere : Slot) :
    (answer message wasthere).z = .finite 1 := by
  rw [answer]
  split
  · exact h
  · exact h

theorem answer_goose (message : Message) (wasthere : Slot) : (answer message wasthere).goose = message.goose := by
  rw [answer]
  split <;> rfl

/-- **What is stored and what the mouse is owed** are what the slot and the mouse held. -/
theorem Asked.conserves {message : Message} (h : c.Asked message) {slot : Slot}
    (hswap : message.bo = true → Exact slot.1 ∧ Exact slot.2) (hadd : message.bo = false → slot = c.saw) (item : UInt32) :
    message.contents.of item + Slot.of item ((answer message slot).x.asU32, (answer message slot).y.asU32) =
      slot.of item + c.mouseSlot.of item := by
  rw [answer]
  cases hbo : message.bo with
  | true =>
    have hback : ((Single.ofU32 slot.1).asU32, (Single.ofU32 slot.2).asU32) = slot :=
      Prod.ext (hswap hbo).1 (hswap hbo).2
    rw [h.swap hbo, if_pos rfl, hback, Nat.add_comm]
  | false =>
    obtain ⟨hcontents, hsame, hsmall, hempty⟩ := h.add hbo
    have hmouse : c.mouseSlot.of item = Slot.of item (c.saw.1, c.mouseSlot.2) := by rw [hsame]
    have hnothing : Slot.of item (0, 0) = 0 := by simp [Slot.of]
    rw [if_neg (by decide), hempty, hnothing, hcontents, hadd hbo, hmouse, Slot.of_add c.saw.1 hsmall item, Nat.add_zero]

/-- A client of which nothing changes but its copy of the chests and the messages of others. -/
theorem Waits.congr (h : c.Waits id) {c' : ChestClient} (hserver : c'.toServer = c.toServer)
    (hanswers : c'.answers id = c.answers id) (hready : c'.ready = c.ready) (hmouse : c'.mouseSlot = c.mouseSlot)
    (hsaw : c'.saw = c.saw) (hhandled : ∀ message, c'.handled = some message → c.handled = some message) :
    c'.Waits id ∧ c'.owed id = c.owed id := by
  refine ⟨⟨?_, ?_, ?_, ?_⟩, by rw [owed, owed, hanswers, hmouse]⟩
  · intro message hm
    rw [hserver] at hm
    obtain ⟨hone, hnil, hr, hasked⟩ := h.sent message hm
    refine ⟨hserver.trans hone, hanswers.trans hnil, hready.trans hr, hasked.replaces, ?_, ?_⟩
    · rw [hmouse]
      exact hasked.swap
    · rw [hmouse, hsaw]
      exact hasked.add
  · intro message hm
    rw [hready]
    exact h.handled message (hhandled message hm)
  · rw [hanswers]
    exact h.one
  · rw [hanswers]
    exact h.replaces

/-- The message of a client that waits is the only one, and its answer the next to come. -/
theorem Waits.handle (h : c.Waits id) {message : Message} {rest : List Message} (hto : c.toServer = message :: rest)
    (hhandled : c.handled = none) (slot : Slot) :
    c.Asked message ∧ c.owed id = c.mouseSlot ∧
      ({ c with toServer := rest, handled := some (answer { message with goose := id } slot) } : ChestClient).Waits id ∧
      ({ c with toServer := rest, handled := some (answer { message with goose := id } slot) } : ChestClient).owed id =
        ((answer message slot).x.asU32, (answer message slot).y.asU32) := by
  obtain ⟨hone, hnil, hready, hasked⟩ := h.sent message (by rw [hto]; exact List.mem_cons_self ..)
  obtain rfl : rest = [] := by simpa [hto] using hone
  have hothers : c.fromServer.filter (·.goose = id) = [] := by simpa [answers, hhandled] using hnil
  have hanswers : ({ c with toServer := [], handled := some (answer { message with goose := id } slot) } :
      ChestClient).answers id = [answer { message with goose := id } slot] := by simp [answers, hothers]
  have hanswer : (answer { message with goose := id } slot).x = (answer message slot).x ∧
      (answer { message with goose := id } slot).y = (answer message slot).y := by
    rw [answer, answer]
    split <;> exact ⟨rfl, rfl⟩
  refine ⟨hasked, owed_of_nil hnil, ⟨fun _ hm => absurd hm List.not_mem_nil, ?_, ?_, ?_⟩, ?_⟩
  · rintro _ ⟨⟩
    exact ⟨answer_goose .., hready⟩
  · rw [hanswers]
    exact Nat.le_refl 1
  · rw [hanswers]
    intro _ hm
    rw [List.mem_singleton.mp hm]
    apply answer_replaces
    exact hasked.replaces
  · rw [owed_of_cons hanswers, hanswer.1, hanswer.2]

/-- A message that arrives at a client replaces its mouse if it is an answer. -/
theorem Waits.receive (h : c.Waits id) {message : Message} {rest : List Message} (hfrom : c.fromServer = message :: rest) :
    (({ c with fromServer := rest } : ChestClient).receive id message).Waits id ∧
      (({ c with fromServer := rest } : ChestClient).receive id message).owed id = c.owed id := by
  by_cases hgoose : message.goose = id
  · have hanswers : c.answers id = c.handled.toList ++ message :: rest.filter (·.goose = id) := by
      simp [answers, hfrom, hgoose]
    have hmem : message ∈ c.answers id := by simp [hanswers]
    have hlen := h.one
    rw [hanswers, List.length_append, List.length_cons] at hlen
    have hhandled : c.handled.toList = [] := List.length_eq_zero_iff.mp (by omega)
    have hrest : rest.filter (·.goose = id) = [] := List.length_eq_zero_iff.mp (by omega)
    have hserver : c.toServer = [] := by
      cases hto : c.toServer with
      | nil => rfl
      | cons sent _ =>
        have hnil := (h.sent sent (by rw [hto]; exact List.mem_cons_self ..)).2.1
        rw [hnil] at hmem
        cases hmem
    have hnone : c.handled = none := by simpa using hhandled
    have hafter : (({ c with fromServer := rest } : ChestClient).receive id message).answers id = [] := by
      simp only [answers, ChestClient.receive, hnone, Option.toList_none, List.nil_append]
      exact hrest
    refine ⟨⟨?_, ?_, ?_, ?_⟩, ?_⟩
    · intro sent hsent
      rw [show (({ c with fromServer := rest } : ChestClient).receive id message).toServer = [] from hserver] at hsent
      cases hsent
    · intro sent hsent
      cases hnone.symm.trans hsent
    · rw [hafter]
      exact Nat.zero_le 1
    · rw [hafter]
      exact fun _ hm => absurd hm List.not_mem_nil
    · rw [owed_of_nil hafter]
      rw [hhandled, hrest] at hanswers
      rw [owed_of_cons hanswers]
      exact if_pos ⟨hgoose, h.replaces message hmem⟩
  · refine h.congr rfl ?_ rfl ?_ rfl fun _ hm => hm
    · simp [answers, ChestClient.receive, hfrom, hgoose]
    · exact if_neg fun hboth => hgoose hboth.1

end ChestClient

namespace Exchange

/-- How many of an item there are, counting for each mouse what it holds once its client has heard
of its own messages. -/
def owedTotal (item : UInt32) (s : Exchange) : ℕ :=
  inChests item s.chestReg + ∑ id ∈ s.present, ((s.client id).owed id).of item

variable {s s' : Exchange}

/-- Changing one client replaces what it adds to a sum. -/
theorem sum_update (f : Uuid → ChestClient → ℕ) (client : Uuid → ChestClient) {present : Finset Uuid} {id : Uuid}
    (hid : id ∈ present) (c : ChestClient) :
    ∑ id' ∈ present, f id' (Function.update client id c id') + f id (client id) =
      ∑ id' ∈ present, f id' (client id') + f id c := by
  have hrest : ∑ id' ∈ present.erase id, f id' (Function.update client id c id') =
      ∑ id' ∈ present.erase id, f id' (client id') :=
    Finset.sum_congr rfl fun id' hid' => by rw [Function.update_of_ne (Finset.ne_of_mem_erase hid')]
  rw [← Finset.add_sum_erase _ _ hid, ← Finset.add_sum_erase present (fun id' => f id' (client id')) hid, hrest,
    Function.update_self]
  omega

/-- Changing a client that is owed the same changes no total. -/
theorem owedTotal_put {id : Uuid} (hid : id ∈ s.present) {c : ChestClient} (hc : c.owed id = (s.client id).owed id)
    (item : UInt32) : (s.put id c).owedTotal item = s.owedTotal item := by
  have hsum := sum_update (fun id c => (c.owed id).of item) s.client hid c
  rw [hc] at hsum
  rw [owedTotal, owedTotal]
  exact congrArg _ (Nat.add_right_cancel hsum)

theorem waits_put (h : ∀ id ∈ s.present, (s.client id).Waits id) {id : Uuid} {c : ChestClient} (hc : c.Waits id) :
    ∀ id' ∈ s.present, ((s.put id c).client id').Waits id' := by
  intro id' hid'
  show (Function.update s.client id c id').Waits id'
  by_cases hsame : id' = id
  · subst hsame
    rw [Function.update_self]
    exact hc
  · rw [Function.update_of_ne hsame]
    exact h id' hid'

/-- A client that waits is owed the same after a message has been sent to all: its own has only
come nearer. -/
theorem waits_sent {id id' : Uuid} (h : (s.client id').Waits id') {message : Message}
    (hhandled : (s.client id).handled = some message) (hgoose : message.goose = id) (hready : (s.client id).ready = true) :
    (s.sent id message id').Waits id' ∧ (s.sent id message id').owed id' = (s.client id').owed id' := by
  rw [sent]
  by_cases hsame : id' = id
  · subst hsame
    have hanswers : (s.client id').answers id' = message :: (s.client id').fromServer.filter (·.goose = id') := by
      simp [ChestClient.answers, hhandled]
    have hothers : (s.client id').fromServer.filter (·.goose = id') = [] := by
      have hone := h.one
      rw [hanswers, List.length_cons] at hone
      exact List.length_eq_zero_iff.mp (by omega)
    simp only [if_true]
    rw [if_pos hready]
    refine h.congr rfl ?_ rfl rfl rfl fun _ hm => nomatch hm
    rw [hanswers, hothers]
    simp [ChestClient.answers, hothers, hgoose]
  · have hne : message.goose ≠ id' := fun he => hsame (he.symm.trans hgoose)
    simp only [if_neg hsame]
    split
    · refine h.congr rfl ?_ rfl rfl rfl fun _ hm => hm
      simp [ChestClient.answers, hne]
    · exact ⟨h, rfl⟩

/-- **One event** under the condition keeps the invariant and the totals. -/
theorem step (h : ∀ id ∈ s.present, (s.client id).Waits id) {event : ExchangeEvent} (hcareful : s.Careful event)
    (hstep : s.happens event = some s') :
    s'.present = s.present ∧ (∀ id ∈ s.present, (s'.client id).Waits id) ∧
      ∀ item, s'.owedTotal item = s.owedTotal item := by
  cases event with
  | click id pos e =>
    rw [happens] at hstep
    split at hstep
    · next hid =>
      obtain ⟨c, hc, rfl⟩ := Option.map_eq_some_iff.mp hstep
      obtain ⟨ch, hch, rfl⟩ := Option.map_eq_some_iff.mp hc
      obtain ⟨⟨hready, hserver, hnil, hexact⟩, -⟩ := hcareful
      have hwaits := h id hid
      refine ⟨rfl, waits_put h ⟨?_, hwaits.handled, hwaits.one, hwaits.replaces⟩, ?_⟩
      · intro message hm
        rw [hserver, List.nil_append] at hm ⊢
        rw [List.mem_singleton.mp hm]
        rw [hch, Option.getD_some] at hexact
        exact ⟨rfl, hnil, hready, ChestClient.asked_clickMessage hexact _⟩
      · apply owedTotal_put hid
        rfl
    · cases hstep
  | handle id =>
    rw [happens] at hstep
    split at hstep
    · next message rest hhandled hserver =>
      split at hstep
      · next hid =>
        obtain ⟨r, hr, rfl⟩ := Option.map_eq_some_iff.mp hstep
        have hhead : message ∈ (s.client id).toServer.head? := by rw [hserver]; rfl
        obtain ⟨hanswer, hchests⟩ := chestInvUpdate_spec hr
        obtain ⟨hasked, howed, hwaits, howed'⟩ := (h id hid).handle hserver hhandled (slotOf message s.chestReg)
        have hr₂ : r.2 = answer { message with goose := id } (slotOf message s.chestReg) := hanswer
        rw [← hr₂] at hwaits howed'
        refine ⟨rfl, waits_put h hwaits, ?_⟩
        intro item
        have hsum := sum_update (fun id c => (c.owed id).of item) s.client hid
          { s.client id with toServer := rest, handled := some r.2 }
        have hconserves : message.contents.of item + Slot.of item ((answer message (slotOf message s.chestReg)).x.asU32,
            (answer message (slotOf message s.chestReg)).y.asU32) =
            (slotOf message s.chestReg).of item + (s.client id).mouseSlot.of item :=
          hasked.conserves (hcareful.1 message hhead) (hcareful.2 message hhead) item
        have hchest : inChests item r.1 + (slotOf message s.chestReg).of item =
            inChests item s.chestReg + message.contents.of item := hchests item
        simp only [howed, howed'] at hsum
        rw [owedTotal, owedTotal]
        simp only
        omega
      · cases hstep
    · cases hstep
  | broadcast id =>
    rw [happens] at hstep
    split at hstep
    · next message hhandled =>
      split at hstep
      · next hid =>
        cases hstep
        obtain ⟨hgoose, hready⟩ := (h id hid).handled message hhandled
        have hall : ∀ id' ∈ s.present, (s.sent id message id').Waits id' ∧
            (s.sent id message id').owed id' = (s.client id').owed id' :=
          fun id' hid' => waits_sent (h id' hid') hhandled hgoose hready
        refine ⟨rfl, fun id' hid' => (hall id' hid').1, ?_⟩
        intro item
        exact congrArg (inChests item s.chestReg + ·)
          (Finset.sum_congr rfl fun id' hid' => congrArg (Slot.of item) (hall id' hid').2)
      · cases hstep
    · cases hstep
  | receive id =>
    rw [happens] at hstep
    split at hstep
    · next message rest hfrom =>
      split at hstep
      · next hid =>
        cases hstep
        obtain ⟨hwaits, howed⟩ := (h id hid).receive hfrom
        exact ⟨rfl, waits_put h hwaits, fun item => owedTotal_put hid howed item⟩
      · cases hstep
    · cases hstep

/-- The states of the runs from a state, in which every event meets the condition. -/
def Reaches (start : Exchange) : Exchange → Prop :=
  Reached (· = start) Careful fun s event s' => s.happens event = some s'

theorem Quiet.answers (h : s.Quiet) {id : Uuid} (hid : id ∈ s.present) : (s.client id).answers id = [] := by
  obtain ⟨-, hhandled, hfrom⟩ := h id hid
  simp [ChestClient.answers, hhandled, hfrom]

theorem Quiet.waits (h : s.Quiet) : ∀ id ∈ s.present, (s.client id).Waits id := by
  intro id hid
  have hanswers := h.answers hid
  obtain ⟨hserver, hhandled, -⟩ := h id hid
  refine ⟨?_, ?_, by simp [hanswers], by simp [hanswers]⟩
  · simp [hserver]
  · simp [hhandled]

/-- When all messages have arrived, nothing is owed. -/
theorem Quiet.owedTotal_eq (h : s.Quiet) (item : UInt32) : s.owedTotal item = s.total item := by
  rw [owedTotal, total]
  exact congrArg (inChests item s.chestReg + ·)
    (Finset.sum_congr rfl fun id hid => congrArg (Slot.of item) (ChestClient.owed_of_nil (h.answers hid)))

/-- The invariant of a run: all clients wait, and the totals are those at its start. -/
def Conserves (start s : Exchange) : Prop :=
  (∀ id ∈ s.present, (s.client id).Waits id) ∧ ∀ item, s.owedTotal item = start.owedTotal item

/-- **No item is lost and none is made**, from a state in which no message is under way: at all
times the chests and what the mice are owed hold what the chests and the mice held, and so do the
chests and the mice when all messages have arrived. -/
theorem chests_conserve {start : Exchange} (hstart : start.Quiet) (h : start.Reaches s) (item : UInt32) :
    s.owedTotal item = start.total item ∧ (s.Quiet → s.total item = start.total item) := by
  obtain ⟨-, htotal⟩ : start.Conserves s := by
    refine h.invariant ?_ ?_
    · rintro _ rfl
      exact ⟨hstart.waits, fun _ => rfl⟩
    · rintro s s' event ⟨hwaits, htotal⟩ hcareful hstep
      obtain ⟨hpresent, hwaits', htotal'⟩ := step hwaits hcareful hstep
      exact ⟨hpresent ▸ hwaits', fun item => (htotal' item).trans (htotal item)⟩
  have howed := (htotal item).trans (hstart.owedTotal_eq item)
  exact ⟨howed, fun hquiet => (hquiet.owedTotal_eq item).symm.trans howed⟩

/-- A chest with five of an item in its first slot. -/
def stack : ChestInventory := ChestInventory.untouched.replaceSlot 0 (31, 5)

/-- Two clients that look into the chest, with three and with two of the item in their mice. -/
def twoPlayers : Exchange where
  chestReg := (∅ : HashMap IVec3 ChestInventory).insert ⟨0, 0, 0⟩ stack
  present := {(0, 1), (0, 2)}
  client id :=
    { mouseSlot := if id = (0, 1) then (31, 3) else (31, 2)
      chestRegistry := (∅ : HashMap IVec3 ChestInventory).insert ⟨0, 0, 0⟩ stack
      ready := true, toServer := [], handled := none, fromServer := [], saw := (0, 0) }

theorem firstSlot : 0 < ROWLENGTH * 4 := by decide

/-- Both add to the stack, the second after it has heard of the first. -/
def oneAfterTheOther : List ExchangeEvent :=
  [.click (0, 1) ⟨0, 0, 0⟩ ⟨0, firstSlot⟩, .handle (0, 1), .broadcast (0, 1), .receive (0, 1), .receive (0, 2),
    .click (0, 2) ⟨0, 0, 0⟩ ⟨0, firstSlot⟩, .handle (0, 2), .broadcast (0, 2), .receive (0, 1), .receive (0, 2)]

/-- Both add to the stack before either has heard of the other. -/
def atTheSameTime : List ExchangeEvent :=
  [.click (0, 1) ⟨0, 0, 0⟩ ⟨0, firstSlot⟩, .click (0, 2) ⟨0, 0, 0⟩ ⟨0, firstSlot⟩, .handle (0, 1), .handle (0, 2),
    .broadcast (0, 1), .broadcast (0, 2), .receive (0, 1), .receive (0, 1), .receive (0, 2), .receive (0, 2)]

/-- One after the other, they end with ten of the item in the chest. -/
theorem chests_conserve_oneAfterTheOther : ∃ s, twoPlayers.Reaches s ∧ s.Quiet ∧ s.total 31 = 10 := by
  have hplay : (play Careful happens oneAfterTheOther twoPlayers).map (fun s => decide s.Quiet) = some true := by
    decide +kernel
  obtain ⟨s, hs, hquiet⟩ := Option.map_eq_some_iff.mp hplay
  have hreaches : twoPlayers.Reaches s := Reached.play (.start rfl) hs
  have hten : twoPlayers.total 31 = 10 := by decide +kernel
  have hstart : twoPlayers.Quiet := by decide +kernel
  exact ⟨s, hreaches, of_decide_eq_true hquiet, ((chests_conserve hstart hreaches 31).2 (of_decide_eq_true hquiet)).trans hten⟩

/-- **Items are lost** when two clients add to one stack at the same time: seven are left of ten. -/
theorem chests_loseItems : ¬ ∀ start s : Exchange, start.Quiet →
    Reached (· = start) Prompt (fun s event s' => s.happens event = some s') s → s.Quiet →
      ∀ item, s.total item = start.total item := by
  intro h
  have hplay : (play Prompt happens atTheSameTime twoPlayers).map (fun s => (decide s.Quiet, s.total 31)) =
      some (true, 7) := by decide +kernel
  obtain ⟨s, hs, hend⟩ := Option.map_eq_some_iff.mp hplay
  obtain ⟨hquiet, hseven⟩ := Prod.mk.inj hend
  have hten : twoPlayers.total 31 = 10 := by decide +kernel
  have hstart : twoPlayers.Quiet := by decide +kernel
  have hsame := h twoPlayers s hstart (Reached.play (.start rfl) hs) (of_decide_eq_true hquiet) 31
  rw [hseven, hten] at hsame
  cases hsame

end Exchange

end Distgard
