import Distgard.Lib.HashMap
import Distgard.Lib.Run
import Distgard.Lib.Text

/-!
# Rebinding keys

Keys are bound to actions by their scancodes, mouse buttons by their names. The bindings
menu has a row for every binding, with the action and the bound input as a text. After a
click on a row the game listens: the next key or mouse button is to be bound instead.
Which input the row stands for is read back from its text.

## The model

`Bindings` are the two maps, the rows of the bindings menu while it is on the screen, and
what is about to be rebound. A row, and what is about to be rebound, keep the binding they
were made for (`bound`), which no code reads. A key is the scancode it has, if it has one.
Both maps are iterated in an arbitrary order, which the event carries. Which characters of
a name are shown as they are is a parameter.

## What is proved

* `command_key`, `command_mouse` — the text of a key's row is read back as that key; the
  text of a mouse button's row, which is in quotes, as the key with scancode 1.
* `rebinding_iff` — after any run, an event keeps all actions and changes no more than the
  chosen row exactly when that row is a key's or the input pressed is already bound.
* `rebinding_losesAction` — rebinding a mouse button takes an action from the keyboard.
-/

namespace Distgard

open Lib

/-- The buttons of the mouse. -/
inductive MouseButton where
  /-- The left button. -/
  | Button1
  /-- The right button. -/
  | Button2
  /-- The middle button. -/
  | Button3
  /-- The fourth button. -/
  | Button4
  /-- The fifth button. -/
  | Button5
  /-- The sixth button. -/
  | Button6
  /-- The seventh button. -/
  | Button7
  /-- The eighth button. -/
  | Button8
  deriving DecidableEq

/-- The name of a mouse button. -/
def MouseButton.debug : MouseButton → String
  | Button1 => "Button1"
  | Button2 => "Button2"
  | Button3 => "Button3"
  | Button4 => "Button4"
  | Button5 => "Button5"
  | Button6 => "Button6"
  | Button7 => "Button7"
  | Button8 => "Button8"

/-- Read a number of 32 bits with a sign. -/
def parseI32 (word : List Char) : Option Int32 :=
  (Text.parseInt word).bind fun n => if -2 ^ 31 ≤ n ∧ n < 2 ^ 31 then some (Int32.ofInt n) else none

/-- What a binding is for: a key or a mouse button. -/
inductive Bound where
  /-- The key with a scancode. -/
  | key (scan : Int32)
  /-- The mouse button with a name. -/
  | mouse (name : String)
  deriving DecidableEq

/-- Both inputs are keys, or both are mouse buttons. -/
def Bound.SameKind : Bound → Bound → Prop
  | .key _, .key _ => True
  | .mouse _, .mouse _ => True
  | _, _ => False

/-- The input is a key. -/
def Bound.IsKey : Bound → Prop
  | .key _ => True
  | .mouse _ => False

/-- What is rebound. -/
inductive Rebindable where
  /-- A key, by its scancode. -/
  | key (scan : Int32)
  /-- A mouse button. -/
  | mouseButton (button : MouseButton)

/-- What is about to be rebound. -/
structure AboutToRebind where
  /-- The old input. -/
  key : Rebindable
  /-- The action. -/
  action : String
  /-- The binding of the row that was chosen. -/
  bound : Bound

/-- A row of the bindings menu. -/
structure BindingRow where
  /-- The action. -/
  binding : String
  /-- The input, as a text. -/
  glfwkey : List Char
  /-- The binding the row was made for. -/
  bound : Bound

/-- The orders in which the two maps are iterated. -/
structure BindingOrders where
  /-- For the keys. -/
  keys : ∀ m : HashMap Int32 String, HashMap.Iter m
  /-- For the mouse buttons. -/
  mice : ∀ m : HashMap String String, HashMap.Iter m

/-- What can happen to the bindings. -/
inductive RebindEvent where
  /-- The bindings menu is opened. -/
  | openMenu (orders : BindingOrders)
  /-- The way back to the settings is taken. -/
  | clickBack
  /-- The input of a row is clicked. -/
  | clickRow (index : ℕ)
  /-- A key is pressed or released. -/
  | key (orders : BindingOrders) (scancode : Option Int32)
  /-- A mouse button is pressed or released. -/
  | mouseButton (orders : BindingOrders) (button : MouseButton)

/-- The input that the event brings. -/
def RebindEvent.input : RebindEvent → Option Bound
  | .key _ scancode => some (.key (scancode.getD 0))
  | .mouseButton _ button => some (.mouse button.debug)
  | _ => none

/-- The bindings, and the menu in which they are changed. -/
structure Bindings where
  /-- The actions of the keys. -/
  keybinds : HashMap Int32 String
  /-- The actions of the mouse buttons. -/
  mousebinds : HashMap String String
  /-- The rows of the bindings menu, if it is on the screen. -/
  currentbuttons : Option (List BindingRow)
  /-- Whether the next input is to be bound. -/
  listeningForRebind : Bool
  /-- What is about to be rebound. -/
  aboutToRebind : Option AboutToRebind

namespace Bindings

/-- Bindings with no menu on the screen. -/
def ofMaps (keybinds : HashMap Int32 String) (mousebinds : HashMap String String) : Bindings where
  keybinds := keybinds
  mousebinds := mousebinds
  currentbuttons := none
  listeningForRebind := false
  aboutToRebind := none

section

variable (plain : Char → Bool)

/-- Show the bindings menu. -/
def bindingsmenu (orders : BindingOrders) (s : Bindings) : Bindings :=
  { s with currentbuttons := some (
      (orders.keys s.keybinds).entries.map (fun e => ⟨e.2, Text.debugInt e.1.toInt, .key e.1⟩) ++
      (orders.mice s.mousebinds).entries.map (fun e => ⟨e.2, Text.debugString plain e.1, .mouse e.1⟩)) }

/-- The mouse button with a name. -/
def mouseButtonOf (glfwkey : List Char) : MouseButton :=
  if glfwkey = "Button1".toList then .Button1
  else if glfwkey = "Button2".toList then .Button2
  else if glfwkey = "Button3".toList then .Button3
  else if glfwkey = "Button4".toList then .Button4
  else if glfwkey = "Button5".toList then .Button5
  else if glfwkey = "Button6".toList then .Button6
  else if glfwkey = "Button7".toList then .Button7
  else .Button8

/-- The input a row stands for, read from its text. -/
def rebindableOf (glfwkey : List Char) : Rebindable :=
  let int := (parseI32 glfwkey).getD 1
  if "Button".toList.isPrefixOf glfwkey then .mouseButton (mouseButtonOf glfwkey) else .key int

/-- Click on the input of a row. -/
def clickRow (index : ℕ) (s : Bindings) : Bindings :=
  match s.currentbuttons.bind (·[index]?) with
  | some row =>
    if row.glfwkey ≠ [] then
      { s with
        listeningForRebind := true
        aboutToRebind := some ⟨rebindableOf row.glfwkey, row.binding, row.bound⟩ }
    else s
  | none => s

/-- Go back to the settings. -/
def clickBack (s : Bindings) : Bindings := { s with currentbuttons := none }

/-- A key is pressed or released. -/
def keyEvent (orders : BindingOrders) (scancode : Option Int32) (s : Bindings) : Bindings :=
  if s.listeningForRebind then
    let keyscan := scancode.getD 0
    match s.aboutToRebind with
    | some ⟨.key oldscan, action, _⟩ =>
      if keyscan ∈ s.keybinds then { s with listeningForRebind := false }
      else
        let s := { s with keybinds := (s.keybinds.erase oldscan).insert keyscan action }
        { s.bindingsmenu plain orders with listeningForRebind := false }
    | some ⟨.mouseButton _, _, _⟩ => s
    | none => s
  else s

/-- A mouse button is pressed or released. -/
def mouseEvent (orders : BindingOrders) (mousebutton : MouseButton) (s : Bindings) : Bindings :=
  if s.listeningForRebind then
    match s.aboutToRebind with
    | some ⟨.key _, _, _⟩ => s
    | some ⟨.mouseButton mb, action, _⟩ =>
      if mousebutton.debug ∈ s.mousebinds then { s with listeningForRebind := false }
      else
        let s := { s with mousebinds := (s.mousebinds.erase mb.debug).insert mousebutton.debug action }
        { s.bindingsmenu plain orders with listeningForRebind := false }
    | none => s
  else s

end

/-! ### What the rows say -/

/-- The text of a key's row is read back as that key. -/
theorem command_key (scan : Int32) : rebindableOf (Text.debugInt scan.toInt) = .key scan := by
  have hparse : parseI32 (Text.debugInt scan.toInt) = some scan := by
    rw [parseI32, Text.parseInt_debugInt, Option.bind_some, if_pos ⟨scan.le_toInt, scan.toInt_lt⟩, Int32.ofInt_toInt]
  have hprefix : ("Button".toList.isPrefixOf (Text.debugInt scan.toInt)) = false := by
    apply Bool.eq_false_iff.mpr
    intro h
    obtain ⟨rest, hrest⟩ := List.isPrefixOf_iff_prefix.mp h
    have hhead : (Text.debugInt scan.toInt).head? = some 'B' := by
      rw [← hrest]
      rfl
    rcases Text.head?_debugInt hhead with h | h
    · cases h
    · cases h
  rw [rebindableOf, hparse, hprefix]
  rfl

/-- The text of a mouse button's row is in quotes, and is read back as the key with scancode 1. -/
theorem command_mouse (plain : Char → Bool) (name : String) :
    rebindableOf (Text.debugString plain name) = .key 1 := by
  have hparse : parseI32 (Text.debugString plain name) = none := by
    rw [parseI32, Text.parseInt_debugString, Option.bind_none]
  have hprefix : ("Button".toList.isPrefixOf (Text.debugString plain name)) = false := rfl
  rw [rebindableOf, hparse, hprefix]
  rfl

/-! ### Events -/

/-- Let an event happen. -/
def step (plain : Char → Bool) (s : Bindings) : RebindEvent → Bindings
  | .openMenu orders => s.bindingsmenu plain orders
  | .clickBack => s.clickBack
  | .clickRow index => s.clickRow index
  | .key orders scancode => s.keyEvent plain orders scancode
  | .mouseButton orders button => s.mouseEvent plain orders button

/-- The action an input is bound to. -/
def actionOf (s : Bindings) : Bound → Option String
  | .key scan => s.keybinds.lookup scan
  | .mouse name => s.mousebinds.lookup name

/-- What is about to be rebound, while the game listens. -/
def chosen (s : Bindings) : Option AboutToRebind := if s.listeningForRebind then s.aboutToRebind else none

/-- The event keeps the actions of both maps, changes no binding but the chosen one, and moves
the action of the chosen row to the input if that is of its kind and unbound. -/
structure LosesNothing (plain : Char → Bool) (s : Bindings) (event : RebindEvent) : Prop where
  /-- The actions of the keys are kept. -/
  keys : HashMap.values (s.step plain event).keybinds = HashMap.values s.keybinds
  /-- The actions of the mouse buttons are kept. -/
  mice : HashMap.values (s.step plain event).mousebinds = HashMap.values s.mousebinds
  /-- Every binding is kept, but for the one of the chosen row. -/
  kept : ∀ bound action, s.actionOf bound = some action → (∀ row, s.chosen = some row → row.bound ≠ bound) →
    (s.step plain event).actionOf bound = some action
  /-- A new binding is that of the input to the action of the chosen row. -/
  new : ∀ bound action, (s.step plain event).actionOf bound = some action → s.actionOf bound = some action ∨
    event.input = some bound ∧ ∃ row, s.chosen = some row ∧ row.action = action
  /-- An unbound input of the kind of the chosen row is bound instead of it. -/
  moved : ∀ row input, s.chosen = some row → event.input = some input → row.bound.SameKind input →
    s.actionOf input = none →
    (s.step plain event).actionOf input = some row.action ∧ (s.step plain event).actionOf row.bound = none

/-- The chosen row is a key's, or the input is already bound. -/
def Spared (s : Bindings) (event : RebindEvent) : Prop :=
  ∀ row input, s.chosen = some row → event.input = some input → row.bound.IsKey ∨ s.actionOf input ≠ none

/-- The bindings of all runs from some maps in which every event is allowed. -/
abbrev From (plain : Char → Bool) (start : Bindings) (allowed : Bindings → RebindEvent → Prop) : Bindings → Prop :=
  Reached (· = start) allowed fun s event s' => s' = s.step plain event

/-- The rows of the menu, and what is about to be rebound, agree with the maps. -/
structure Shown (plain : Char → Bool) (s : Bindings) : Prop where
  /-- A row shows a binding. -/
  rows : ∀ rows, s.currentbuttons = some rows → ∀ row ∈ rows, s.actionOf row.bound = some row.binding ∧
    row.glfwkey = match row.bound with
      | .key scan => Text.debugInt scan.toInt
      | .mouse name => Text.debugString plain name
  /-- While the game listens, the chosen row is bound, and its input was read from its text. -/
  chosen : ∀ row, s.chosen = some row → s.actionOf row.bound = some row.action ∧
    row.key = match row.bound with
      | .key scan => .key scan
      | .mouse _ => .key 1

/-- The menu shows the maps, whatever it showed before. -/
theorem Shown.bindingsmenu {plain : Char → Bool} {s : Bindings} (orders : BindingOrders)
    (hchosen : ∀ row, s.chosen = some row → s.actionOf row.bound = some row.action ∧
      row.key = match row.bound with
        | .key scan => .key scan
        | .mouse _ => .key 1) : Shown plain (s.bindingsmenu plain orders) := by
  refine ⟨?_, hchosen⟩
  intro rows hrows row hrow
  cases hrows
  rcases List.mem_append.mp hrow with hrow | hrow
  · obtain ⟨⟨scan, action⟩, hmem, rfl⟩ := List.mem_map.mp hrow
    exact ⟨((orders.keys s.keybinds).mem_iff scan action).mp hmem, rfl⟩
  · obtain ⟨⟨name, action⟩, hmem, rfl⟩ := List.mem_map.mp hrow
    exact ⟨((orders.mice s.mousebinds).mem_iff name action).mp hmem, rfl⟩

/-- What an event of the menu does: it changes no binding, and what is chosen afterwards is
bound and read from its text. -/
theorem Shown.clickRow {plain : Char → Bool} {s : Bindings} (hs : Shown plain s) (index : ℕ) :
    Shown plain (s.clickRow index) := by
  unfold Bindings.clickRow
  split
  · next row hrow =>
    split
    · refine ⟨hs.rows, ?_⟩
      intro atr hatr
      cases hatr
      obtain ⟨rows, hrows, hindex⟩ := Option.bind_eq_some_iff.mp hrow
      obtain ⟨hbound, htext⟩ := hs.rows rows hrows row (List.mem_of_getElem? hindex)
      refine ⟨hbound, ?_⟩
      simp only
      rw [htext]
      cases row.bound with
      | key scan => exact command_key scan
      | mouse name => exact command_mouse plain name
    · exact hs
  · exact hs

theorem keybinds_clickRow (index : ℕ) (s : Bindings) : (s.clickRow index).keybinds = s.keybinds := by
  unfold clickRow
  split
  · split <;> rfl
  · rfl

theorem mousebinds_clickRow (index : ℕ) (s : Bindings) : (s.clickRow index).mousebinds = s.mousebinds := by
  unfold clickRow
  split
  · split <;> rfl
  · rfl

/-- What is chosen is about to be rebound, and the game listens. -/
theorem listening_of_chosen {s : Bindings} {row : AboutToRebind} (hrow : s.chosen = some row) :
    s.listeningForRebind = true ∧ s.aboutToRebind = some row := by
  rw [chosen] at hrow
  split at hrow
  · next hlisten => exact ⟨hlisten, hrow⟩
  · cases hrow

/-- A key while a key is about to be rebound. -/
theorem keyEvent_of_chosen {plain : Char → Bool} {orders : BindingOrders} {scancode : Option Int32} {s : Bindings}
    {row : AboutToRebind} {oldscan : Int32} (hrow : s.chosen = some row) (hkey : row.key = .key oldscan) :
    s.keyEvent plain orders scancode =
      if scancode.getD 0 ∈ s.keybinds then { s with listeningForRebind := false }
      else { bindingsmenu plain orders
          { s with keybinds := (s.keybinds.erase oldscan).insert (scancode.getD 0) row.action } with
        listeningForRebind := false } := by
  obtain ⟨hlisten, habout⟩ := listening_of_chosen hrow
  obtain ⟨key, action, bound⟩ := row
  cases hkey
  rw [keyEvent, if_pos hlisten, habout]

/-- A key while a mouse button is about to be rebound. -/
theorem keyEvent_of_mouseButton {plain : Char → Bool} {orders : BindingOrders} {scancode : Option Int32} {s : Bindings}
    {row : AboutToRebind} {mb : MouseButton} (hrow : s.chosen = some row) (hkey : row.key = .mouseButton mb) :
    s.keyEvent plain orders scancode = s := by
  obtain ⟨hlisten, habout⟩ := listening_of_chosen hrow
  obtain ⟨key, action, bound⟩ := row
  cases hkey
  rw [keyEvent, if_pos hlisten, habout]

/-- A mouse button while a key is about to be rebound. -/
theorem mouseEvent_of_chosen {plain : Char → Bool} {orders : BindingOrders} {button : MouseButton} {s : Bindings}
    {row : AboutToRebind} {oldscan : Int32} (hrow : s.chosen = some row) (hkey : row.key = .key oldscan) :
    s.mouseEvent plain orders button = s := by
  obtain ⟨hlisten, habout⟩ := listening_of_chosen hrow
  obtain ⟨key, action, bound⟩ := row
  cases hkey
  rw [mouseEvent, if_pos hlisten, habout]

/-- While nothing is about to be rebound, inputs rebind nothing. -/
theorem keyEvent_of_not_chosen {plain : Char → Bool} {orders : BindingOrders} {scancode : Option Int32} {s : Bindings}
    (hnone : s.chosen = none) : s.keyEvent plain orders scancode = s := by
  rw [chosen] at hnone
  split at hnone
  · next hlisten => rw [keyEvent, if_pos hlisten, hnone]
  · next hlisten => rw [keyEvent, if_neg hlisten]

theorem mouseEvent_of_not_chosen {plain : Char → Bool} {orders : BindingOrders} {button : MouseButton} {s : Bindings}
    (hnone : s.chosen = none) : s.mouseEvent plain orders button = s := by
  rw [chosen] at hnone
  split at hnone
  · next hlisten => rw [mouseEvent, if_pos hlisten, hnone]
  · next hlisten => rw [mouseEvent, if_neg hlisten]

/-- What a key does to the bindings of the keys: if a key is to be rebound and the one that is
pressed is not bound, that gets its action. -/
theorem keys_keyEvent {plain : Char → Bool} (orders : BindingOrders) (scancode : Option Int32) (s : Bindings) :
    (s.keyEvent plain orders scancode).keybinds = s.keybinds ∧
      (∀ row oldscan, s.chosen = some row → row.key = .key oldscan → scancode.getD 0 ∈ s.keybinds) ∨
    ∃ row oldscan, s.chosen = some row ∧ row.key = .key oldscan ∧ scancode.getD 0 ∉ s.keybinds ∧
      (s.keyEvent plain orders scancode).keybinds = (s.keybinds.erase oldscan).insert (scancode.getD 0) row.action := by
  cases hrow : s.chosen with
  | none =>
    refine .inl ⟨by rw [keyEvent_of_not_chosen hrow], ?_⟩
    intro row _ hsome
    cases hsome
  | some row =>
    cases hkey : row.key with
    | key oldscan =>
      rw [keyEvent_of_chosen hrow hkey]
      split
      · next hold => exact .inl ⟨rfl, fun _ _ _ _ => hold⟩
      · next hnew => exact .inr ⟨row, oldscan, rfl, hkey, hnew, rfl⟩
    | mouseButton mb =>
      refine .inl ⟨by rw [keyEvent_of_mouseButton hrow hkey], ?_⟩
      intro row' _ hrow' hkey'
      cases hrow'
      rw [hkey] at hkey'
      cases hkey'

/-- A mouse button does nothing to the bindings of the keys. -/
theorem keys_mouseEvent {plain : Char → Bool} (orders : BindingOrders) (button : MouseButton) (s : Bindings) :
    (s.mouseEvent plain orders button).keybinds = s.keybinds := by
  rw [mouseEvent]
  split
  · split
    · rfl
    · split <;> rfl
    · rfl
  · rfl

/-- What is about to be rebound is always taken for a key: the row's own, or the one with
scancode 1. -/
theorem Shown.key {plain : Char → Bool} {s : Bindings} (hs : Shown plain s) {row : AboutToRebind}
    (hrow : s.chosen = some row) : ∃ oldscan, row.key = .key oldscan := by
  have hkey := (hs.chosen row hrow).2
  cases hbound : row.bound with
  | key scan =>
    rw [hbound] at hkey
    exact ⟨scan, hkey⟩
  | mouse name =>
    rw [hbound] at hkey
    exact ⟨1, hkey⟩

/-- A mouse button rebinds nothing. -/
theorem Shown.mouseEvent {plain : Char → Bool} {s : Bindings} (hs : Shown plain s) (orders : BindingOrders)
    (button : MouseButton) : s.mouseEvent plain orders button = s := by
  cases hrow : s.chosen with
  | none => exact mouseEvent_of_not_chosen hrow
  | some row =>
    obtain ⟨oldscan, hkey⟩ := hs.key hrow
    exact mouseEvent_of_chosen hrow hkey

/-- **One event** keeps the menu in agreement with the maps. -/
theorem Shown.step {plain : Char → Bool} {s : Bindings} (hs : Shown plain s) (event : RebindEvent) :
    Shown plain (s.step plain event) := by
  cases event with
  | openMenu orders => exact Shown.bindingsmenu orders hs.chosen
  | clickBack => exact ⟨fun rows hrows => (by cases hrows), hs.chosen⟩
  | clickRow index => exact hs.clickRow index
  | key orders scancode =>
    rw [Bindings.step]
    cases hrow : s.chosen with
    | none =>
      rw [keyEvent_of_not_chosen hrow]
      exact hs
    | some row =>
      obtain ⟨oldscan, hkey⟩ := hs.key hrow
      rw [keyEvent_of_chosen hrow hkey]
      split
      · refine ⟨hs.rows, ?_⟩
        intro row' hrow'
        cases hrow'
      · have hmenu : Shown plain (Bindings.bindingsmenu plain orders { s with
            keybinds := (s.keybinds.erase oldscan).insert (scancode.getD 0) row.action
            listeningForRebind := false }) := Shown.bindingsmenu orders (fun row' hrow' => (by cases hrow'))
        exact hmenu
  | mouseButton orders button =>
    rw [Bindings.step, hs.mouseEvent]
    exact hs

/-- An event that changes neither map loses nothing, if no unbound input of the kind of the
chosen row has to be bound. -/
theorem LosesNothing.of_same {plain : Char → Bool} {s : Bindings} {event : RebindEvent}
    (hkeys : (s.step plain event).keybinds = s.keybinds) (hmice : (s.step plain event).mousebinds = s.mousebinds)
    (hbound : ∀ row input, s.chosen = some row → event.input = some input → row.bound.SameKind input →
      s.actionOf input ≠ none) : LosesNothing plain s event := by
  have hsame : ∀ bound, (s.step plain event).actionOf bound = s.actionOf bound := by
    intro bound
    cases bound with
    | key scan => rw [actionOf, hkeys, actionOf]
    | mouse name => rw [actionOf, hmice, actionOf]
  constructor
  · rw [hkeys]
  · rw [hmice]
  · intro bound action h _
    rw [hsame, h]
  · intro bound action h
    rw [hsame] at h
    exact Or.inl h
  · intro row input hrow hinput hkind hnone
    exact absurd hnone (hbound row input hrow hinput hkind)

/-- Moving the action of a chosen key to a key that is not bound loses nothing. -/
theorem LosesNothing.of_move {plain : Char → Bool} {s : Bindings} {event : RebindEvent} {row : AboutToRebind}
    {oldscan keyscan : Int32} (hrow : s.chosen = some row) (hbound : row.bound = .key oldscan)
    (hold : s.keybinds.lookup oldscan = some row.action) (hinput : event.input = some (.key keyscan))
    (hnew : keyscan ∉ s.keybinds)
    (hkeys : (s.step plain event).keybinds = (s.keybinds.erase oldscan).insert keyscan row.action)
    (hmice : (s.step plain event).mousebinds = s.mousebinds) : LosesNothing plain s event := by
  have hlookup : ∀ scan, (s.step plain event).actionOf (.key scan) =
      if scan = keyscan then some row.action else if scan = oldscan then none else s.keybinds.lookup scan := by
    intro scan
    rw [actionOf, hkeys, HashMap.lookup_insert', HashMap.lookup_erase']
  have hmouse : ∀ name, (s.step plain event).actionOf (.mouse name) = s.actionOf (.mouse name) := by
    intro name
    rw [actionOf, hmice, actionOf]
  have hne : oldscan ≠ keyscan := by
    rintro rfl
    exact hnew (Finmap.mem_of_lookup_eq_some hold)
  constructor
  · rw [hkeys, HashMap.values_move hold hnew]
  · rw [hmice]
  · intro bound action haction hother
    cases bound with
    | mouse name => rw [hmouse, haction]
    | key scan =>
      have hscan : scan ≠ keyscan := by
        rintro rfl
        exact hnew (Finmap.mem_of_lookup_eq_some haction)
      have hscan' : scan ≠ oldscan := by
        rintro rfl
        exact hother row hrow hbound
      rw [hlookup, if_neg hscan, if_neg hscan']
      exact haction
  · intro bound action haction
    cases bound with
    | mouse name =>
      rw [hmouse] at haction
      exact Or.inl haction
    | key scan =>
      rw [hlookup] at haction
      split at haction
      · next he =>
        rw [he]
        exact Or.inr ⟨hinput, row, hrow, Option.some.inj haction⟩
      · split at haction
        · cases haction
        · exact Or.inl haction
  · intro row' input hrow' hinput' _ _
    rw [hrow, Option.some.injEq] at hrow'
    rw [hinput, Option.some.injEq] at hinput'
    subst hrow' hinput'
    rw [hbound, hlookup, hlookup, if_pos rfl, if_neg hne, if_pos rfl]
    exact ⟨rfl, rfl⟩

/-- **One event** loses nothing if the chosen row is a key's or the input is already bound. -/
theorem Shown.losesNothing {plain : Char → Bool} {s : Bindings} (hs : Shown plain s) {event : RebindEvent}
    (hspared : s.Spared event) : LosesNothing plain s event := by
  have hmenu : event.input = none → LosesNothing plain s event := by
    intro hnone
    cases event with
    | openMenu orders => exact .of_same rfl rfl (fun row input _ hinput => by cases hinput)
    | clickBack => exact .of_same rfl rfl (fun row input _ hinput => by cases hinput)
    | clickRow index =>
      exact .of_same (keybinds_clickRow index s) (mousebinds_clickRow index s)
        (fun row input _ hinput => by cases hinput)
    | key orders scancode => cases hnone
    | mouseButton orders button => cases hnone
  cases event with
  | openMenu orders => exact hmenu rfl
  | clickBack => exact hmenu rfl
  | clickRow index => exact hmenu rfl
  | mouseButton orders button =>
    refine .of_same (by rw [Bindings.step, hs.mouseEvent]) (by rw [Bindings.step, hs.mouseEvent]) ?_
    intro row input hrow hinput hkind
    cases hinput
    apply (hspared row _ hrow rfl).resolve_left
    intro hkey
    cases hbound : row.bound with
    | key scan =>
      rw [hbound] at hkind
      exact hkind
    | mouse name =>
      rw [hbound] at hkey
      exact hkey
  | key orders scancode =>
    cases hrow : s.chosen with
    | none =>
      have hsame : s.step plain (.key orders scancode) = s := keyEvent_of_not_chosen hrow
      refine .of_same (by rw [hsame]) (by rw [hsame]) ?_
      intro row input hrow'
      rw [hrow] at hrow'
      cases hrow'
    | some row =>
      obtain ⟨oldscan, hkey⟩ := hs.key hrow
      have hstep : s.step plain (.key orders scancode) = _ := keyEvent_of_chosen hrow hkey
      by_cases hmem : scancode.getD 0 ∈ s.keybinds
      · rw [if_pos hmem] at hstep
        refine .of_same (by rw [hstep]) (by rw [hstep]) ?_
        intro row' input _ hinput _
        cases hinput
        rw [actionOf, ne_eq, Finmap.lookup_eq_none]
        exact not_not_intro hmem
      · rw [if_neg hmem] at hstep
        have hisKey : row.bound.IsKey := (hspared row _ hrow rfl).resolve_right
          (fun hbound => hbound (Finmap.lookup_eq_none.mpr hmem))
        obtain ⟨hold, hread⟩ := hs.chosen row hrow
        cases hbound : row.bound with
        | mouse name =>
          rw [hbound] at hisKey
          exact hisKey.elim
        | key scan =>
          rw [hbound] at hold hread
          rw [hkey, Rebindable.key.injEq] at hread
          subst hread
          exact .of_move hrow hbound hold rfl hmem (by rw [hstep]; rfl) (by rw [hstep]; rfl)

/-- **What loses something**: an unbound input for a row of a mouse button. A key takes the
action away from the key with scancode 1 and binds it twice, a mouse button is not bound. -/
theorem Shown.spared {plain : Char → Bool} {s : Bindings} (hs : Shown plain s) {event : RebindEvent}
    (h : LosesNothing plain s event) : s.Spared event := by
  intro row input hrow hinput
  by_contra hnot
  obtain ⟨hmouse, hunbound⟩ := not_or.mp hnot
  have hunbound' : s.actionOf input = none := not_not.mp hunbound
  obtain ⟨hold, hread⟩ := hs.chosen row hrow
  cases hbound : row.bound with
  | key scan =>
    rw [hbound] at hmouse
    exact hmouse trivial
  | mouse name =>
    rw [hbound] at hold hread
    cases event with
    | openMenu orders => cases hinput
    | clickBack => cases hinput
    | clickRow index => cases hinput
    | mouseButton orders button =>
      cases hinput
      have hkind : row.bound.SameKind (.mouse button.debug) := by
        rw [hbound]
        exact trivial
      have hmoved := (h.moved row _ hrow rfl hkind hunbound').1
      have hsame : s.step plain (.mouseButton orders button) = s := hs.mouseEvent orders button
      rw [hsame, hunbound'] at hmoved
      cases hmoved
    | key orders scancode =>
      cases hinput
      have hnew : scancode.getD 0 ∉ s.keybinds := Finmap.lookup_eq_none.mp hunbound'
      have hstep : s.step plain (.key orders scancode) = _ := keyEvent_of_chosen hrow hread
      rw [if_neg hnew] at hstep
      have hkeys : (s.step plain (.key orders scancode)).keybinds =
          (s.keybinds.erase 1).insert (scancode.getD 0) row.action := by
        rw [hstep]
        rfl
      cases hone : s.keybinds.lookup 1 with
      | some action =>
        -- the binding of the key with scancode 1 is gone
        have hkept := h.kept (.key 1) action hone (by
          intro row' hrow'
          rw [hrow, Option.some.injEq] at hrow'
          rw [← hrow', hbound]
          exact Bound.noConfusion)
        have hne : (1 : Int32) ≠ scancode.getD 0 := by
          intro he
          rw [← he] at hnew
          exact hnew (Finmap.mem_of_lookup_eq_some hone)
        rw [actionOf, hkeys, HashMap.lookup_insert', HashMap.lookup_erase', if_neg hne, if_pos rfl] at hkept
        cases hkept
      | none =>
        -- the action is bound twice
        have herase : s.keybinds.erase 1 = s.keybinds := by
          apply Finmap.ext_lookup
          intro scan
          rw [HashMap.lookup_erase']
          split
          · next he => rw [he, hone]
          · rfl
        have hvalues := h.keys
        rw [hkeys, herase, HashMap.values_insert hnew] at hvalues
        have hcard := congrArg Multiset.card hvalues
        rw [Multiset.card_cons] at hcard
        omega

/-- In every run the menu agrees with the maps. -/
theorem From.shown {plain : Char → Bool} {keybinds : HashMap Int32 String} {mousebinds : HashMap String String}
    {allowed : Bindings → RebindEvent → Prop} {s : Bindings} (h : From plain (ofMaps keybinds mousebinds) allowed s) :
    Shown plain s := by
  apply h.invariant
  · rintro _ rfl
    exact ⟨fun rows hrows => (by cases hrows), fun row hrow => (by cases hrow)⟩
  · rintro s _ event hs _ rfl
    exact hs.step event

/-- **Rebinding loses no action**, whatever the maps and the run before, exactly where the
chosen row is a key's or the input is already bound; and in a run of such events both maps
keep their actions. -/
theorem rebinding_iff (plain : Char → Bool) (keybinds : HashMap Int32 String) (mousebinds : HashMap String String) :
    (∀ s, From plain (ofMaps keybinds mousebinds) (fun _ _ => True) s → ∀ event,
      LosesNothing plain s event ↔ s.Spared event) ∧
    ∀ s, From plain (ofMaps keybinds mousebinds) Spared s →
      HashMap.values s.keybinds = HashMap.values keybinds ∧ HashMap.values s.mousebinds = HashMap.values mousebinds := by
  constructor
  · intro s hs event
    exact ⟨hs.shown.spared, hs.shown.losesNothing⟩
  · intro s hs
    have hinv : Shown plain s ∧ HashMap.values s.keybinds = HashMap.values keybinds ∧
        HashMap.values s.mousebinds = HashMap.values mousebinds := by
      apply hs.invariant
      · rintro _ rfl
        exact ⟨From.shown (.start rfl : From plain (ofMaps keybinds mousebinds) Spared _), rfl, rfl⟩
      · rintro s _ event ⟨hshown, hkeys, hmice⟩ hspared rfl
        have hstep := hshown.losesNothing hspared
        exact ⟨hshown.step event, hstep.keys.trans hkeys, hstep.mice.trans hmice⟩
    exact hinv.2

/-- The binding of one key. -/
def exitKey : HashMap Int32 String := (∅ : HashMap Int32 String).insert 1 "Exit/Menu"

/-- The binding of one mouse button. -/
def breakButton : HashMap String String := (∅ : HashMap String String).insert "Button1" "Break/Attack"

/-- The menu of the two bindings, after a click on one of its rows. -/
def clicked (plain : Char → Bool) (orders : BindingOrders) (index : ℕ) : Bindings :=
  ((ofMaps exitKey breakButton).step plain (.openMenu orders)).step plain (.clickRow index)

theorem clicked_from (plain : Char → Bool) (orders : BindingOrders) (index : ℕ)
    {allowed : Bindings → RebindEvent → Prop} (hallowed : ∀ s event, event.input = none → allowed s event) :
    From plain (ofMaps exitKey breakButton) allowed (clicked plain orders index) := by
  have hopen : From plain (ofMaps exitKey breakButton) allowed
      ((ofMaps exitKey breakButton).step plain (.openMenu orders)) :=
    Reached.step (.openMenu orders) (.start rfl) (hallowed _ _ rfl) rfl
  exact hopen.step (.clickRow index) (hallowed _ _ rfl) rfl

/-- The rows of the two bindings. -/
theorem currentbuttons_openMenu (plain : Char → Bool) (orders : BindingOrders) :
    ((ofMaps exitKey breakButton).step plain (.openMenu orders)).currentbuttons =
      some [⟨"Exit/Menu", Text.debugInt 1, .key 1⟩,
        ⟨"Break/Attack", Text.debugString plain "Button1", .mouse "Button1"⟩] := by
  have hkeys := (orders.keys exitKey).entries_singleton
  have hmice := (orders.mice breakButton).entries_singleton
  simp only [step, bindingsmenu, ofMaps, hkeys, hmice, List.map_cons, List.map_nil, List.cons_append, List.nil_append]
  rfl

/-- A click on a row chooses it. -/
theorem chosen_clickRow {s : Bindings} {rows : List BindingRow} {index : ℕ} {row : BindingRow}
    (hrows : s.currentbuttons = some rows) (hrow : rows[index]? = some row) (hne : row.glfwkey ≠ []) :
    (s.clickRow index).chosen = some ⟨rebindableOf row.glfwkey, row.binding, row.bound⟩ := by
  have hbind : s.currentbuttons.bind (·[index]?) = some row := by rw [hrows, Option.bind_some, hrow]
  rw [clickRow.eq_def]
  simp only [hbind, if_pos hne]
  rfl

/-- The menu has a row for every key that is bound: a click on it chooses the key. -/
theorem exists_clickRow (plain : Char → Bool) (orders : BindingOrders) (s : Bindings) {scan : Int32} {action : String}
    (hbound : s.keybinds.lookup scan = some action) :
    ∃ index, ((s.bindingsmenu plain orders).clickRow index).chosen = some ⟨.key scan, action, .key scan⟩ := by
  have hmem : (scan, action) ∈ (orders.keys s.keybinds).entries :=
    ((orders.keys s.keybinds).mem_iff scan action).mpr hbound
  have hne : Text.debugInt scan.toInt ≠ [] := by
    intro hempty
    have hparse := Text.parseInt_debugInt scan.toInt
    rw [hempty] at hparse
    cases hparse
  let row : BindingRow := ⟨action, Text.debugInt scan.toInt, .key scan⟩
  have hrow : row ∈ (orders.keys s.keybinds).entries.map (fun e => ⟨e.2, Text.debugInt e.1.toInt, .key e.1⟩) ++
      (orders.mice s.mousebinds).entries.map (fun e => ⟨e.2, Text.debugString plain e.1, .mouse e.1⟩) :=
    List.mem_append_left _ (List.mem_map.mpr ⟨(scan, action), hmem, rfl⟩)
  obtain ⟨index, hindex⟩ := List.mem_iff_getElem?.mp hrow
  refine ⟨index, ?_⟩
  rw [chosen_clickRow rfl hindex hne, command_key]

/-- The first row is chosen as the key it is. -/
theorem chosen_clicked_zero (plain : Char → Bool) (orders : BindingOrders) :
    (clicked plain orders 0).chosen = some ⟨.key 1, "Exit/Menu", .key 1⟩ := by
  have hchosen := chosen_clickRow (currentbuttons_openMenu plain orders) (List.getElem?_cons_zero) (by decide)
  exact hchosen.trans (congrArg (fun key => some (AboutToRebind.mk key "Exit/Menu" (.key 1))) (command_key 1))

/-- The second row is chosen as a key, though it is a mouse button's. -/
theorem chosen_clicked_one (plain : Char → Bool) (orders : BindingOrders) :
    (clicked plain orders 1).chosen = some ⟨.key 1, "Break/Attack", .mouse "Button1"⟩ := by
  have hrow : ([⟨"Exit/Menu", Text.debugInt 1, .key 1⟩,
      ⟨"Break/Attack", Text.debugString plain "Button1", .mouse "Button1"⟩] : List BindingRow)[1]? =
      some ⟨"Break/Attack", Text.debugString plain "Button1", .mouse "Button1"⟩ := rfl
  have hchosen := chosen_clickRow (currentbuttons_openMenu plain orders) hrow (List.cons_ne_nil _ _)
  exact hchosen.trans
    (congrArg (fun key => some (AboutToRebind.mk key "Break/Attack" (.mouse "Button1"))) (command_mouse plain "Button1"))

theorem bindingOrders_exists : Nonempty BindingOrders :=
  ⟨⟨fun m => (HashMap.Iter.exists m).some, fun m => (HashMap.Iter.exists m).some⟩⟩

/-- Rebinding the key to another one loses nothing. -/
theorem rebinding_exitKey :
    Nonempty BindingOrders ∧ ∀ (plain : Char → Bool) (orders : BindingOrders),
      (clicked plain orders 0).chosen = some ⟨.key 1, "Exit/Menu", .key 1⟩ ∧
      LosesNothing plain (clicked plain orders 0) (.key orders (some 30)) := by
  refine ⟨bindingOrders_exists, fun plain orders => ⟨chosen_clicked_zero plain orders, ?_⟩⟩
  have hfrom : From plain (ofMaps exitKey breakButton) (fun _ _ => True) (clicked plain orders 0) :=
    clicked_from plain orders 0 (fun _ _ _ => trivial)
  apply ((rebinding_iff plain exitKey breakButton).1 _ hfrom _).mpr
  intro row input hrow _
  rw [chosen_clicked_zero, Option.some.injEq] at hrow
  rw [← hrow]
  exact Or.inl trivial

/-- **Rebinding a mouse button to a key** takes another action from the keyboard, and leaves
the mouse button bound. -/
theorem rebinding_losesAction :
    Nonempty BindingOrders ∧ ∀ (plain : Char → Bool) (orders : BindingOrders),
      From plain (ofMaps exitKey breakButton) (fun _ _ => True) (clicked plain orders 1) ∧
      (∃ row, (clicked plain orders 1).chosen = some row ∧ row.bound = .mouse "Button1") ∧
      ((clicked plain orders 1).step plain (.key orders (some 30))).keybinds =
        ((∅ : HashMap Int32 String).insert 30 "Break/Attack") ∧
      HashMap.values ((clicked plain orders 1).step plain (.key orders (some 30))).keybinds ≠ HashMap.values exitKey ∧
      ¬ LosesNothing plain (clicked plain orders 1) (.key orders (some 30)) := by
  refine ⟨bindingOrders_exists, fun plain orders => ?_⟩
  have hchosen := chosen_clicked_one plain orders
  have hmaps : (clicked plain orders 1).keybinds = exitKey := keybinds_clickRow 1 _
  have hnew : (30 : Int32) ∉ (clicked plain orders 1).keybinds := by
    rw [hmaps, exitKey, Finmap.mem_insert, not_or]
    exact ⟨by decide, Finmap.notMem_empty⟩
  have hstep : (clicked plain orders 1).step plain (.key orders (some 30)) = _ := keyEvent_of_chosen hchosen rfl
  rw [Option.getD_some, if_neg hnew] at hstep
  have hkeys : ((clicked plain orders 1).step plain (.key orders (some 30))).keybinds =
      (∅ : HashMap Int32 String).insert 30 "Break/Attack" := by
    have herase : (clicked plain orders 1).keybinds.erase 1 = ∅ := by
      apply Finmap.ext_lookup
      intro scan
      rw [hmaps, exitKey, HashMap.lookup_erase', HashMap.lookup_insert', Finmap.lookup_empty]
      split
      · rfl
      · rfl
    rw [← herase, hstep]
    rfl
  have hvalues : HashMap.values ((clicked plain orders 1).step plain (.key orders (some 30))).keybinds ≠
      HashMap.values exitKey := by
    rw [hkeys, exitKey, HashMap.values_insert Finmap.notMem_empty, HashMap.values_insert Finmap.notMem_empty]
    exact fun h => absurd ((Multiset.cons_inj_left _).mp h) (by decide)
  refine ⟨clicked_from plain orders 1 (fun _ _ _ => trivial), ⟨_, hchosen, rfl⟩, hkeys, hvalues, ?_⟩
  intro h
  apply hvalues
  rw [h.keys, hmaps]

end Bindings

end Distgard
