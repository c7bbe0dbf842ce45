import Distgard.Keybinds

/-!
# Starting the program again

The bindings are kept in a file, which the program reads when it starts. The key B got an action
later than the others, so reading a file binds it, if the file binds B to nothing: whether the
action is bound to another key is not looked at. The bindings of a program without a file do
without B.

## The model

* `MiscellaneousSettingsData` are the bindings in the file. Writing and reading it as text loses
  nothing, so the file holds them as they are. The other settings are left out.
* `Installation` is the running program with its file. `saveMisc` and `loadMisc` write and read
  the file; `start` is a new program that reads it, `restart` ends with writing it and starts
  anew.
* The scancodes of the keys are a parameter. Those that the program takes for granted exist.
* `SettingsEvent` are the events of the bindings menu, and restarts. Besides, any row may be
  chosen with any reading of its text, so that mouse buttons can be rebound too.

## What is proved

* `Installation.keys_restart` — what a restart makes of the bindings of the keys.
* `Installation.mem_step_iff` — the key B stays bound, unless it is what is rebound.
* `Installation.restart_keeps_iff` — a restart keeps the bindings exactly where B is bound; this
  holds in every run that starts with a file, if B is not rebound in it.
* `Installation.restart_bindsAgain` — without a file, or after B was rebound, a restart binds
  "Build Mode Toggle" to B.
-/

namespace Distgard

open Lib

/-- The keys that the settings name. -/
inductive GlfwKey where
  /-- Escape. -/
  | Escape
  /-- The letter W. -/
  | W
  /-- The letter A. -/
  | A
  /-- The letter S. -/
  | S
  /-- The letter D. -/
  | D
  /-- The letter C. -/
  | C
  /-- The space bar. -/
  | Space
  /-- The left shift key. -/
  | LeftShift
  /-- The left control key. -/
  | LeftControl
  /-- The digit zero. -/
  | Num0
  /-- The digit nine. -/
  | Num9
  /-- The letter B. -/
  | B

/-- The settings in the file, as far as the bindings go. -/
structure MiscellaneousSettingsData where
  /-- The actions of the keys. -/
  keybinds : HashMap Int32 String
  /-- The actions of the mouse buttons. -/
  mousebinds : HashMap String String

/-- The settings of a program that has read no file. -/
def MISCSETTINGS (getScancode : GlfwKey → Int32) : MiscellaneousSettingsData where
  keybinds := HashMap.insertAll [
    (getScancode .Escape, "Exit/Menu"),
    (getScancode .W, "Forward"),
    (getScancode .A, "Left"),
    (getScancode .S, "Backward"),
    (getScancode .D, "Right"),
    (getScancode .C, "Craft"),
    (getScancode .Space, "Jump/Swim/Climb Up"),
    (getScancode .LeftShift, "Sprint"),
    (getScancode .LeftControl, "Crouch"),
    (getScancode .Num0, "Fov Up"),
    (getScancode .Num9, "Fov Down")] ∅
  mousebinds := HashMap.insertAll [("Button2", "Place/Use"), ("Button1", "Break/Attack")] ∅

/-- The running program and its file. -/
structure Installation where
  /-- The bindings of the running program. -/
  bindings : Bindings
  /-- The file, if there is one. -/
  misc : Option MiscellaneousSettingsData

/-- What can happen to the settings. -/
inductive SettingsEvent where
  /-- Something happens in the bindings menu. -/
  | rebind (event : RebindEvent)
  /-- A row is chosen, and its text read in some way. -/
  | choose (row : AboutToRebind)
  /-- The program ends and is started again. -/
  | restart

namespace Installation

variable (plain : Char → Bool) (getScancode : GlfwKey → Int32)

/-- Write the file. -/
def saveMisc (s : Installation) : Installation :=
  { s with misc := some ⟨s.bindings.keybinds, s.bindings.mousebinds⟩ }

/-- Read the file, if there is one, bind B if it is not bound, and write the file. -/
def loadMisc (s : Installation) : Installation :=
  match s.misc with
  | some loadedSettings =>
    let keybinds :=
      if getScancode .B ∉ loadedSettings.keybinds then
        loadedSettings.keybinds.insert (getScancode .B) "Build Mode Toggle"
      else loadedSettings.keybinds
    saveMisc { s with
      bindings := { s.bindings with keybinds := keybinds, mousebinds := loadedSettings.mousebinds } }
  | none => s

/-- Start the program with a file, or without one. -/
def start (misc : Option MiscellaneousSettingsData) : Installation :=
  loadMisc getScancode ⟨.ofMaps (MISCSETTINGS getScancode).keybinds (MISCSETTINGS getScancode).mousebinds, misc⟩

/-- Write the file, end the program and start it again. -/
def restart (s : Installation) : Installation := start getScancode s.saveMisc.misc

/-- Let an event happen. -/
def step (s : Installation) : SettingsEvent → Installation
  | .rebind event => { s with bindings := s.bindings.step plain event }
  | .choose row => { s with bindings := { s.bindings with listeningForRebind := true, aboutToRebind := some row } }
  | .restart => s.restart getScancode

/-- A restart keeps the bindings: both maps are as they were. -/
structure Kept (s : Installation) : Prop where
  /-- The keys. -/
  keys : (s.restart getScancode).bindings.keybinds = s.bindings.keybinds
  /-- The mouse buttons. -/
  mice : (s.restart getScancode).bindings.mousebinds = s.bindings.mousebinds

/-- The event leaves the key B alone: if that is to be rebound, the key that is pressed is bound
already, and nothing is rebound. -/
def Spares (s : Installation) (event : SettingsEvent) : Prop :=
  match event with
  | .rebind (.key _ scancode) => ∀ row, s.bindings.chosen = some row → row.key = .key (getScancode .B) →
      scancode.getD 0 ∈ s.bindings.keybinds
  | _ => True

/-! ### One restart -/

variable {getScancode} {s : Installation}

/-- What a restart makes of the bindings of the keys. -/
theorem keys_restart : (s.restart getScancode).bindings.keybinds =
    if getScancode .B ∉ s.bindings.keybinds then s.bindings.keybinds.insert (getScancode .B) "Build Mode Toggle"
    else s.bindings.keybinds := rfl

theorem mice_restart : (s.restart getScancode).bindings.mousebinds = s.bindings.mousebinds := rfl

/-- A restart keeps the bindings exactly where B is bound. -/
theorem kept_iff : s.Kept getScancode ↔ getScancode .B ∈ s.bindings.keybinds := by
  constructor
  · intro hkept
    have hkeys := hkept.keys
    rw [keys_restart] at hkeys
    by_contra hunbound
    rw [if_pos hunbound] at hkeys
    rw [← hkeys, Finmap.mem_insert] at hunbound
    exact hunbound (.inl rfl)
  · intro hbound
    refine ⟨?_, mice_restart⟩
    rw [keys_restart, if_neg (not_not_intro hbound)]

/-- After reading a file B is bound. -/
theorem mem_start (misc : MiscellaneousSettingsData) :
    getScancode .B ∈ (start getScancode (some misc)).bindings.keybinds := by
  show getScancode .B ∈ (if getScancode .B ∉ misc.keybinds then _ else _ : HashMap Int32 String)
  split
  · exact Finmap.mem_insert.mpr (.inl rfl)
  · next hbound => exact not_not.mp hbound

/-! ### Runs -/

variable {plain}

/-- **One event**: the key B stays bound, unless it is what is rebound. -/
theorem mem_step_iff (hbound : getScancode .B ∈ s.bindings.keybinds) (event : SettingsEvent) :
    getScancode .B ∈ (s.step plain getScancode event).bindings.keybinds ↔ s.Spares getScancode event := by
  cases event with
  | choose row => exact iff_of_true hbound trivial
  | restart => exact iff_of_true (mem_start _) trivial
  | rebind event =>
    cases event with
    | openMenu orders => exact iff_of_true hbound trivial
    | clickBack => exact iff_of_true hbound trivial
    | clickRow index =>
      refine iff_of_true ?_ trivial
      show _ ∈ (s.bindings.clickRow index).keybinds
      rw [Bindings.keybinds_clickRow]
      exact hbound
    | mouseButton orders button =>
      refine iff_of_true ?_ trivial
      show _ ∈ (s.bindings.mouseEvent plain orders button).keybinds
      rw [Bindings.keys_mouseEvent]
      exact hbound
    | key orders scancode =>
      show _ ∈ (s.bindings.keyEvent plain orders scancode).keybinds ↔ _
      rcases Bindings.keys_keyEvent orders scancode s.bindings with ⟨hsame, hold⟩ | ⟨row, oldscan, hrow, hkey, hnew, hkeys⟩
      · rw [hsame]
        exact iff_of_true hbound fun row hrow hkey => hold row _ hrow hkey
      · have hne : getScancode .B ≠ scancode.getD 0 := fun he => hnew (he ▸ hbound)
        rw [hkeys, Finmap.mem_insert, Finmap.mem_erase]
        constructor
        · intro hstays row' hrow' hkey'
          rw [hrow, Option.some.injEq] at hrow'
          subst hrow'
          rw [hkey, Rebindable.key.injEq] at hkey'
          exact absurd hkey'.symm (hstays.resolve_left hne).1
        · intro hspares
          refine .inr ⟨?_, hbound⟩
          rintro rfl
          exact hnew (hspares row hrow hkey)

/-- The states of the runs that start in some way and whose events are all allowed. -/
abbrev From (plain : Char → Bool) (getScancode : GlfwKey → Int32) (first : Installation → Prop)
    (allowed : Installation → SettingsEvent → Prop) : Installation → Prop :=
  Reached first allowed fun s event s' => s' = s.step plain getScancode event

/-- **Restarts and bindings**: in every run from a first start, with a file or without, a restart
keeps both maps exactly where B is bound; and in a run that starts with a file and leaves the key B
alone, restarts keep them everywhere. -/
theorem restart_keeps_iff (plain : Char → Bool) (getScancode : GlfwKey → Int32) :
    (∀ s, From plain getScancode (fun s => ∃ misc, s = start getScancode misc) (fun _ _ => True) s →
      (s.Kept getScancode ↔ getScancode .B ∈ s.bindings.keybinds)) ∧
    ∀ s, From plain getScancode (fun s => ∃ misc, s = start getScancode (some misc)) (Spares getScancode) s →
      s.Kept getScancode := by
  constructor
  · intro s _
    exact kept_iff
  · intro s hs
    apply kept_iff.mpr
    apply hs.invariant
    · rintro _ ⟨misc, rfl⟩
      exact mem_start misc
    · rintro s _ event hbound hspares rfl
      exact (mem_step_iff hbound event).mpr hspares

/-! ### Two installations -/

/-- A key can be rebound to one that is not bound: the menu is opened, the row of the key clicked,
the other key pressed. -/
theorem exists_rebound (orders : BindingOrders) {s : Installation} {scan keyscan : Int32} {action : String}
    (hbound : s.bindings.keybinds.lookup scan = some action) (hnew : keyscan ∉ s.bindings.keybinds)
    {first : Installation → Prop} {allowed : Installation → SettingsEvent → Prop}
    (hfrom : From plain getScancode first allowed s)
    (hallowed : ∀ t event, event.input = none ∨ (∀ row, t.bindings.chosen = some row → row.key = .key scan) →
      allowed t (.rebind event)) :
    ∃ s', From plain getScancode first allowed s' ∧
      s'.bindings.keybinds = (s.bindings.keybinds.erase scan).insert keyscan action := by
  obtain ⟨index, hchosen⟩ := Bindings.exists_clickRow plain orders s.bindings hbound
  have hkeys : ((s.bindings.bindingsmenu plain orders).clickRow index).keybinds = s.bindings.keybinds :=
    Bindings.keybinds_clickRow index _
  have hopen := hfrom.step (.rebind (.openMenu orders)) (hallowed _ _ (.inl rfl)) rfl
  have hclick := hopen.step (.rebind (.clickRow index)) (hallowed _ _ (.inl rfl)) rfl
  have hkey : ∀ row, ((s.bindings.bindingsmenu plain orders).clickRow index).chosen = some row → row.key = .key scan := by
    intro row hrow
    rw [hchosen, Option.some.injEq] at hrow
    rw [← hrow]
  have hpress := hclick.step (.rebind (.key orders (some keyscan))) (hallowed _ _ (.inr hkey)) rfl
  refine ⟨_, hpress, ?_⟩
  show (Bindings.keyEvent plain orders (some keyscan) ((s.bindings.bindingsmenu plain orders).clickRow index)).keybinds = _
  rw [Bindings.keyEvent_of_chosen hchosen rfl, Option.getD_some, hkeys, if_neg hnew]
  rfl

/-- The scancodes of a system. -/
def scancodes : GlfwKey → Int32
  | .Escape => 9
  | .W => 25
  | .A => 38
  | .S => 39
  | .D => 40
  | .C => 54
  | .Space => 65
  | .LeftShift => 50
  | .LeftControl => 37
  | .Num0 => 19
  | .Num9 => 18
  | .B => 56

/-- Where the program starts with a file, "Forward" can be moved from W to Z, and restarts keep
that. -/
theorem restart_keeps_forward : Nonempty BindingOrders ∧ ∀ (plain : Char → Bool), BindingOrders → ∃ s : Installation,
    From plain scancodes (fun s => ∃ misc, s = start scancodes (some misc)) (Spares scancodes) s ∧
    s.bindings.keybinds.lookup 25 = none ∧ s.bindings.keybinds.lookup 52 = some "Forward" ∧ s.Kept scancodes := by
  refine ⟨Bindings.bindingOrders_exists, fun plain orders => ?_⟩
  have hfirst : From plain scancodes (fun s => ∃ misc, s = start scancodes (some misc)) (Spares scancodes)
      (start scancodes (some (MISCSETTINGS scancodes))) := .start ⟨_, rfl⟩
  have hforward : (start scancodes (some (MISCSETTINGS scancodes))).bindings.keybinds.lookup 25 = some "Forward" := by
    decide
  have hfree : 52 ∉ (start scancodes (some (MISCSETTINGS scancodes))).bindings.keybinds := by decide
  have hspares : ∀ (t : Installation) (event : RebindEvent),
      event.input = none ∨ (∀ row, t.bindings.chosen = some row → row.key = .key 25) →
        t.Spares scancodes (.rebind event) := by
    intro t event hevent
    cases event with
    | key orders scancode =>
      intro row hrow hkey
      rw [hevent.resolve_left (Option.some_ne_none _) row hrow] at hkey
      cases hkey
    | _ => trivial
  obtain ⟨s, hs, hkeys⟩ := exists_rebound orders hforward hfree hfirst hspares
  refine ⟨s, hs, ?_, ?_, (restart_keeps_iff plain scancodes).2 s hs⟩
  · rw [hkeys]
    decide
  · rw [hkeys]
    decide

/-- **A restart binds B again.** After a first start without a file no key toggles the build mode,
and after a restart B does. After a start with a file B does; when that is moved to N, only N
does, and after a restart both do. -/
theorem restart_bindsAgain :
    (start scancodes none).bindings.keybinds.lookup 56 = none ∧
    "Build Mode Toggle" ∉ HashMap.values (start scancodes none).bindings.keybinds ∧
    ((start scancodes none).restart scancodes).bindings.keybinds.lookup 56 = some "Build Mode Toggle" ∧
    ¬ (start scancodes none).Kept scancodes ∧
    Nonempty BindingOrders ∧ ∀ (plain : Char → Bool), BindingOrders → ∃ s : Installation,
      From plain scancodes (fun s => ∃ misc, s = start scancodes misc) (fun _ _ => True) s ∧
      s.bindings.keybinds.lookup 56 = none ∧ s.bindings.keybinds.lookup 57 = some "Build Mode Toggle" ∧
      (s.restart scancodes).bindings.keybinds.lookup 56 = some "Build Mode Toggle" ∧
      (s.restart scancodes).bindings.keybinds.lookup 57 = some "Build Mode Toggle" ∧ ¬ s.Kept scancodes := by
  refine ⟨by decide, by decide, by decide, ?_, Bindings.bindingOrders_exists, fun plain orders => ?_⟩
  · rw [kept_iff]
    decide
  · have hfirst : From plain scancodes (fun s => ∃ misc, s = start scancodes misc) (fun _ _ => True)
        (start scancodes (some (MISCSETTINGS scancodes))) := .start ⟨_, rfl⟩
    have htoggle : (start scancodes (some (MISCSETTINGS scancodes))).bindings.keybinds.lookup 56 =
        some "Build Mode Toggle" := by decide
    have hfree : 57 ∉ (start scancodes (some (MISCSETTINGS scancodes))).bindings.keybinds := by decide
    obtain ⟨s, hs, hkeys⟩ := exists_rebound orders htoggle hfree hfirst (fun _ _ _ => trivial)
    refine ⟨s, hs, ?_, ?_, ?_, ?_, ?_⟩
    · rw [hkeys]
      decide
    · rw [hkeys]
      decide
    · rw [keys_restart, hkeys]
      decide
    · rw [keys_restart, hkeys]
      decide
    · rw [kept_iff, hkeys]
      decide

end Installation

end Distgard
