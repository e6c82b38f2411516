import Sentinet.Controllers.Wiimote

namespace Sentinet.Controllers

open Sentinet.Data

/-! `Wiimote::loop`: `poll` takes over a report of the device if there is one, and
`control` sets the velocities and toggles the states. -/

/-- `KERMIT_STATE` -/
abbrev KermitState := UInt8

def mining : KermitState := 1
def dumping : KermitState := 2
def driving : KermitState := 4

/-- The buttons in a `wiimote_t`. -/
structure Device where
  btns : UInt16
  btnsHeld : UInt16
deriving DecidableEq, Repr

/-- The macros of `wiiuse.h`. -/
structure Wiiuse where
  isPressed : Device → UInt16 → Bool
  isJustPressed : Device → UInt16 → Bool
  one : UInt16
  home : UInt16
  plus : UInt16
  minus : UInt16
  up : UInt16
  down : UInt16
  right : UInt16
  left : UInt16

namespace Wiiuse

variable (wiiuse : Wiiuse) (device : Device)

def toggles : List UInt16 := [wiiuse.home, wiiuse.plus, wiiuse.minus]

def arrows : List UInt16 := [wiiuse.up, wiiuse.down, wiiuse.right, wiiuse.left]

/-- Buttons are bits of `btns`, each its own, and a button that was just pressed is
pressed. -/
structure Documented : Prop where
  pressed : ∀ device button,
    wiiuse.isPressed device button = true ↔ device.btns &&& button = button
  justPressed : ∀ device button,
    wiiuse.isJustPressed device button = true → wiiuse.isPressed device button = true
  apart : ∀ button ∈ wiiuse.toggles ++ wiiuse.arrows, button ≠ 0 ∧ wiiuse.one &&& button = 0

/-- The state that a report toggles: `HOME` before `PLUS` before `MINUS`. -/
def firstToggle : KermitState :=
  if wiiuse.isJustPressed device wiiuse.home then driving
  else if wiiuse.isJustPressed device wiiuse.plus then mining
  else if wiiuse.isJustPressed device wiiuse.minus then dumping
  else 0

/-- `data[0]->btns &= WIIMOTE_BUTTON_ONE` -/
def clear : Device := { device with btns := device.btns &&& wiiuse.one }

/-- No state would be toggled. -/
def Quiet : Prop := ∀ button ∈ wiiuse.toggles, wiiuse.isJustPressed device button = false

/-- No velocity would be driven. -/
def Released : Prop := ∀ button ∈ wiiuse.arrows, wiiuse.isPressed device button = false

end Wiiuse

structure ControlLoop where
  wiimote : Wiimote
  state : KermitState
  device : Device

namespace ControlLoop

variable (wiiuse : Wiiuse)

def toggleState (toggling : KermitState) (button : UInt16) (loop : ControlLoop) : ControlLoop :=
  if wiiuse.isJustPressed loop.device button then
    { loop with
      state := if loop.state &&& toggling = 0 then loop.state ||| toggling else loop.state - toggling
      device := wiiuse.clear loop.device }
  else loop

def buttons (device : Device) : Buttons where
  up := wiiuse.isPressed device wiiuse.up
  down := wiiuse.isPressed device wiiuse.down
  right := wiiuse.isPressed device wiiuse.right
  left := wiiuse.isPressed device wiiuse.left

/-- `Wiimote::control` -/
def control (elapsed : ℚ) (loop : ControlLoop) : ControlLoop :=
  let loop := { loop with wiimote := loop.wiimote.control elapsed (buttons wiiuse loop.device) }
  let loop := toggleState wiiuse driving wiiuse.home loop
  let loop := toggleState wiiuse mining wiiuse.plus loop
  toggleState wiiuse dumping wiiuse.minus loop

/-- One `loop`, with the report that `wiiuse_poll` found and the time since the last one. -/
structure Turn where
  report : Option Device
  elapsed : ℚ

def step (loop : ControlLoop) (turn : Turn) : ControlLoop :=
  control wiiuse turn.elapsed { loop with device := turn.report.getD loop.device }

/-- The velocities are inside their bounds. -/
def InRange (loop : ControlLoop) : Prop :=
  |loop.wiimote.linear| ≤ loop.wiimote.constants.linearMax ∧
    |loop.wiimote.angular| ≤ loop.wiimote.constants.angularMax

def AtRest (loop : ControlLoop) : Prop := loop.wiimote.linear = 0 ∧ loop.wiimote.angular = 0

/-- A turn that drives nothing, and takes long enough for each velocity to change by the
least step. -/
structure Turn.Coasts (turn : Turn) (constants : BotConstants) (least : ℚ) : Prop where
  released : ∀ report, turn.report = some report → wiiuse.Released report
  linear : least ≤ constants.linearIncriment * turn.elapsed
  angular : least ≤ constants.angularIncriment * turn.elapsed

end ControlLoop

section Toggles

variable {wiiuse : Wiiuse} {device : Device} {loop : ControlLoop} {elapsed : ℚ}

theorem toggled_eq_xor (state : KermitState) {toggling : KermitState}
    (known : toggling ∈ [mining, dumping, driving]) :
    (if state &&& toggling = 0 then state ||| toggling else state - toggling) = state ^^^ toggling := by
  have table : ∀ value : Fin 256, ∀ bit ∈ [mining, dumping, driving],
      (if UInt8.ofNat value &&& bit = 0 then UInt8.ofNat value ||| bit
        else UInt8.ofNat value - bit) = UInt8.ofNat value ^^^ bit := by
    decide +kernel
  have entry := table ⟨state.toNat, state.toNat_lt⟩ toggling known
  rwa [UInt8.ofNat_toNat] at entry

/-- After a toggle every button but `ONE` reads as released. -/
theorem clear_pressed (documented : wiiuse.Documented) {button : UInt16}
    (member : button ∈ wiiuse.toggles ++ wiiuse.arrows) :
    wiiuse.isPressed (wiiuse.clear device) button = false := by
  obtain ⟨nonzero, apart⟩ := documented.apart button member
  rw [Bool.eq_false_iff, ne_eq, documented.pressed]
  intro held
  rw [Wiiuse.clear, UInt16.and_assoc, apart, UInt16.and_zero] at held
  exact nonzero held.symm

theorem clear_quiet (documented : wiiuse.Documented) : wiiuse.Quiet (wiiuse.clear device) := by
  intro button member
  have pressed : wiiuse.isPressed (wiiuse.clear device) button = false :=
    clear_pressed documented (List.mem_append_left _ member)
  cases just : wiiuse.isJustPressed (wiiuse.clear device) button with
  | false => rfl
  | true => exact absurd (documented.justPressed _ _ just) (Bool.eq_false_iff.mp pressed)

/-- The three toggles in a row: the first button that was just pressed toggles its
state and clears the rest away. -/
theorem control_cases (documented : wiiuse.Documented) (loop : ControlLoop) (elapsed : ℚ) :
    (wiiuse.Quiet loop.device ∧ (ControlLoop.control wiiuse elapsed loop).device = loop.device ∧
        wiiuse.firstToggle loop.device = 0 ∧
          (ControlLoop.control wiiuse elapsed loop).state = loop.state) ∨
      ((ControlLoop.control wiiuse elapsed loop).device = wiiuse.clear loop.device ∧
        (ControlLoop.control wiiuse elapsed loop).state =
          loop.state ^^^ wiiuse.firstToggle loop.device) := by
  have quiet : wiiuse.Quiet (wiiuse.clear loop.device) := clear_quiet documented
  have plusQuiet := quiet wiiuse.plus (by simp [Wiiuse.toggles])
  have minusQuiet := quiet wiiuse.minus (by simp [Wiiuse.toggles])
  cases home : wiiuse.isJustPressed loop.device wiiuse.home with
  | true =>
      have toggled := toggled_eq_xor loop.state (by simp : driving ∈ [mining, dumping, driving])
      simp [ControlLoop.control, ControlLoop.toggleState, Wiiuse.firstToggle, home, plusQuiet,
        minusQuiet, toggled]
  | false =>
      cases plus : wiiuse.isJustPressed loop.device wiiuse.plus with
      | true =>
          have toggled := toggled_eq_xor loop.state (by simp : mining ∈ [mining, dumping, driving])
          simp [ControlLoop.control, ControlLoop.toggleState, Wiiuse.firstToggle, home, plus,
            minusQuiet, toggled]
      | false =>
          cases minus : wiiuse.isJustPressed loop.device wiiuse.minus with
          | true =>
              have toggled := toggled_eq_xor loop.state
                (by simp : dumping ∈ [mining, dumping, driving])
              simp [ControlLoop.control, ControlLoop.toggleState, Wiiuse.firstToggle, home, plus,
                minus, toggled]
          | false =>
              simp [ControlLoop.control, ControlLoop.toggleState, Wiiuse.firstToggle, Wiiuse.Quiet,
                Wiiuse.toggles, home, plus, minus]

theorem firstToggle_quiet (quiet : wiiuse.Quiet device) : wiiuse.firstToggle device = 0 := by
  have home := quiet wiiuse.home (by simp [Wiiuse.toggles])
  have plus := quiet wiiuse.plus (by simp [Wiiuse.toggles])
  have minus := quiet wiiuse.minus (by simp [Wiiuse.toggles])
  simp [Wiiuse.firstToggle, home, plus, minus]

theorem control_quiet (documented : wiiuse.Documented) :
    wiiuse.Quiet (ControlLoop.control wiiuse elapsed loop).device := by
  rcases control_cases documented loop elapsed with ⟨quiet, device, -, -⟩ | ⟨device, -⟩
  · rw [device]
    exact quiet
  · rw [device]
    exact clear_quiet documented

theorem control_state (documented : wiiuse.Documented) :
    (ControlLoop.control wiiuse elapsed loop).state =
      loop.state ^^^ wiiuse.firstToggle loop.device := by
  rcases control_cases documented loop elapsed with ⟨-, -, first, same⟩ | ⟨-, toggled⟩
  · rw [same, first, UInt8.xor_zero]
  · exact toggled

end Toggles

/-- The macros as they are documented. -/
def buttonBits : Wiiuse where
  isPressed device button := device.btns &&& button == button
  isJustPressed device button :=
    device.btns &&& button == button && !(device.btnsHeld &&& button == button)
  one := 0x0002
  home := 0x0080
  plus := 0x1000
  minus := 0x0010
  up := 0x0800
  down := 0x0400
  right := 0x0200
  left := 0x0100

theorem buttonBits_documented : buttonBits.Documented where
  pressed _ _ := beq_iff_eq
  justPressed _ _ just := (Bool.and_eq_true_iff.mp just).1
  apart := by
    simp only [Wiiuse.toggles, Wiiuse.arrows, buttonBits, List.cons_append, List.nil_append,
      List.forall_mem_cons, List.not_mem_nil, false_implies, implies_true]
    decide

/-- The states follow the reports: each toggles the first of its buttons that was just
pressed, once, however often the loop turns until the next report. -/
theorem state_follows_reports (wiiuse : Wiiuse) (documented : wiiuse.Documented)
    (loop : ControlLoop) (quiet : wiiuse.Quiet loop.device) (turns : List ControlLoop.Turn) :
    (Run.final (ControlLoop.step wiiuse) loop turns).state =
      (turns.filterMap (·.report)).foldl (fun state report => state ^^^ wiiuse.firstToggle report)
        loop.state := by
  induction turns generalizing loop with
  | nil => rfl
  | cons turn rest ih =>
      have settled : wiiuse.Quiet (ControlLoop.step wiiuse loop turn).device := control_quiet documented
      have state : (ControlLoop.step wiiuse loop turn).state =
          loop.state ^^^ wiiuse.firstToggle (turn.report.getD loop.device) := control_state documented
      rw [Run.final_cons, ih _ settled, state]
      cases report : turn.report with
      | none =>
          rw [Option.getD_none, firstToggle_quiet quiet, UInt8.xor_zero,
            List.filterMap_cons_none report]
      | some seen => rw [Option.getD_some, List.filterMap_cons_some report, List.foldl_cons]

/-- A loop that drives backwards, with nothing pressed. -/
def backwards : ControlLoop where
  wiimote :=
    { constants := { linearMax := 10, linearIncriment := 1, angularMax := 10, angularIncriment := 1 }
      linear := -3, angular := 2 }
  state := driving
  device := { btns := 0, btnsHeld := 0 }

/-- `HOME` is pressed while `UP` is held, and no report says that it was let go. -/
def homeWhileUp : ControlLoop.Turn :=
  { report := some { btns := 0x0880, btnsHeld := 0x0800 }, elapsed := 1 }

theorem state_follows_reports_home :
    (Run.final (ControlLoop.step buttonBits) backwards
        (homeWhileUp :: List.replicate 21 { report := none, elapsed := 1 })).state =
      ((homeWhileUp :: List.replicate 21 { report := none, elapsed := 1 }).filterMap (·.report)).foldl
        (fun state report => state ^^^ buttonBits.firstToggle report) backwards.state :=
  state_follows_reports buttonBits buttonBits_documented backwards
    (by simp [Wiiuse.Quiet, Wiiuse.toggles, buttonBits, backwards]) _

section Rest

variable {max velocity step incriment : ℚ} {wiiuse : Wiiuse} {device : Device} {loop : ControlLoop}
  {turn : ControlLoop.Turn} {elapsed : ℚ}

/-- How far a velocity is from zero in steps of a released button: one below zero may
first turn into one above. -/
def restDistance (max step velocity : ℚ) : ℚ :=
  if velocity < 0 then max + step + |velocity| else velocity

theorem released_nearer (inside : |velocity| ≤ max) (positive : 0 < step) (long : step ≤ incriment) :
    released max velocity incriment = 0 ∨
      restDistance max step (released max velocity incriment) ≤
        restDistance max step velocity - step := by
  obtain ⟨lower, upper⟩ := abs_le.mp inside
  have forward : 0 ≤ incriment := by linarith
  rcases lt_trichotomy velocity 0 with negative | zero | above
  · have start : restDistance max step velocity = max + step + |velocity| := if_pos negative
    have size := abs_of_neg negative
    rcases released_negative negative lower forward with ⟨-, turned⟩ | ⟨-, -, zero⟩ | ⟨fair, same⟩
    · have nonneg : 0 ≤ max := by linarith
      have top := le_of_abs_le (controlled_range nonneg velocity
        { incriment, increase := false, decrease := false })
      rw [← released] at top
      right
      rw [restDistance, if_neg turned.le.not_gt, start]
      linarith [abs_nonneg velocity]
    · exact Or.inl zero
    · rcases fair with stops | half
      · exact Or.inl (same.trans stops)
      · rcases eq_or_lt_of_le (by linarith : velocity + incriment ≤ 0) with stops | below
        · exact Or.inl (same.trans stops)
        · right
          rw [same, restDistance, if_pos below, start, abs_of_neg below]
          linarith
  · left
    rw [zero]
    exact released_zero (by linarith)
  · rw [released_positive above upper forward]
    split
    · exact Or.inl rfl
    · have rest : 0 < velocity - incriment := by linarith
      right
      rw [restDistance, if_neg rest.le.not_gt, restDistance, if_neg above.le.not_gt]
      linarith

theorem restDistance_zero (max step : ℚ) : restDistance max step 0 = 0 := if_neg (lt_irrefl 0)

theorem restDistance_le (inside : |velocity| ≤ max) (positive : 0 < step) :
    restDistance max step velocity ≤ 2 * max + step := by
  have nonneg := abs_nonneg velocity
  unfold restDistance
  split
  · linarith
  · linarith [le_abs_self velocity]

theorem eq_zero_of_restDistance (inside : |velocity| ≤ max) (positive : 0 < step)
    (reached : restDistance max step velocity ≤ 0) : velocity = 0 := by
  have nonneg := abs_nonneg velocity
  unfold restDistance at reached
  split at reached
  · linarith
  · linarith

@[simp] theorem toggleState_wiimote (toggling : KermitState) (button : UInt16) :
    (ControlLoop.toggleState wiiuse toggling button loop).wiimote = loop.wiimote := by
  unfold ControlLoop.toggleState
  split <;> rfl

theorem control_wiimote :
    (ControlLoop.control wiiuse elapsed loop).wiimote =
      loop.wiimote.control elapsed (ControlLoop.buttons wiiuse loop.device) := by
  simp only [ControlLoop.control, toggleState_wiimote]

theorem buttons_released (released : wiiuse.Released device) :
    ControlLoop.buttons wiiuse device = { up := false, down := false, right := false, left := false } := by
  have up := released wiiuse.up (by simp [Wiiuse.arrows])
  have down := released wiiuse.down (by simp [Wiiuse.arrows])
  have right := released wiiuse.right (by simp [Wiiuse.arrows])
  have left := released wiiuse.left (by simp [Wiiuse.arrows])
  rw [ControlLoop.buttons, up, down, right, left]

theorem clear_released (documented : wiiuse.Documented) : wiiuse.Released (wiiuse.clear device) :=
  fun _ member => clear_pressed documented (List.mem_append_right _ member)

theorem step_inRange (wiiuse : Wiiuse) (inRange : loop.InRange) (turn : ControlLoop.Turn) :
    (ControlLoop.step wiiuse loop turn).InRange ∧
      (ControlLoop.step wiiuse loop turn).wiimote.constants = loop.wiimote.constants := by
  have linear := (abs_nonneg _).trans inRange.1
  have angular := (abs_nonneg _).trans inRange.2
  rw [ControlLoop.InRange, ControlLoop.step, control_wiimote]
  exact ⟨⟨controlled_range linear _ _, controlled_range angular _ _⟩, rfl⟩

/-- A turn lets the arrows go if its report presses none, or toggles a state. -/
theorem step_released (documented : wiiuse.Documented)
    (lets : wiiuse.Released (turn.report.getD loop.device) ∨
      wiiuse.firstToggle (turn.report.getD loop.device) ≠ 0) :
    wiiuse.Released (ControlLoop.step wiiuse loop turn).device := by
  rcases control_cases documented { loop with device := turn.report.getD loop.device }
      turn.elapsed with ⟨-, device, none_toggled, -⟩ | ⟨device, -⟩
  · rw [ControlLoop.step, device]
    exact lets.resolve_right (not_not.mpr none_toggled)
  · rw [ControlLoop.step, device]
    exact clear_released documented

/-- Both velocities of a coasting loop. -/
structure ControlLoop.Within (loop : ControlLoop) (least distance : ℚ) : Prop where
  linear : restDistance loop.wiimote.constants.linearMax least loop.wiimote.linear ≤ distance
  angular : restDistance loop.wiimote.constants.angularMax least loop.wiimote.angular ≤ distance

theorem step_within {least distance : ℚ} (positive : 0 < least) (inRange : loop.InRange)
    (released : wiiuse.Released loop.device)
    (coasts : turn.Coasts wiiuse loop.wiimote.constants least)
    (within : loop.Within least (distance + least)) (nonneg : 0 ≤ distance) :
    (ControlLoop.step wiiuse loop turn).Within least distance := by
  have off : wiiuse.Released (turn.report.getD loop.device) := by
    cases report : turn.report with
    | none => exact released
    | some seen => exact coasts.released seen report
  have wiimote : (ControlLoop.step wiiuse loop turn).wiimote = _ := control_wiimote
  have nearer {max velocity incriment : ℚ} (inside : |velocity| ≤ max) (long : least ≤ incriment)
      (near : restDistance max least velocity ≤ distance + least) :
      restDistance max least (Controllers.released max velocity incriment) ≤ distance := by
    rcases released_nearer inside positive long with zero | nearer
    · rw [zero, restDistance_zero]
      exact nonneg
    · linarith
  rw [buttons_released off] at wiimote
  constructor
  · rw [wiimote]
    exact nearer inRange.1 coasts.linear within.linear
  · rw [wiimote]
    exact nearer inRange.2 coasts.angular within.angular

theorem coasting_rests (documented : wiiuse.Documented) {least : ℚ} (positive : 0 < least)
    {turns : List ControlLoop.Turn} (inRange : loop.InRange) (released : wiiuse.Released loop.device)
    (coasts : ∀ turn ∈ turns, turn.Coasts wiiuse loop.wiimote.constants least)
    (within : loop.Within least (turns.length * least)) :
    (Run.final (ControlLoop.step wiiuse) loop turns).AtRest := by
  induction turns generalizing loop with
  | nil =>
      rw [List.length_nil, Nat.cast_zero, zero_mul] at within
      exact ⟨eq_zero_of_restDistance inRange.1 positive within.linear,
        eq_zero_of_restDistance inRange.2 positive within.angular⟩
  | cons turn rest ih =>
      obtain ⟨first, later⟩ := List.forall_mem_cons.mp coasts
      obtain ⟨kept, constants⟩ := step_inRange wiiuse inRange turn
      rw [List.length_cons, Nat.cast_succ, add_mul, one_mul] at within
      have nearer := step_within positive inRange released first within (by positivity)
      have off : wiiuse.Released (turn.report.getD loop.device) := by
        cases report : turn.report with
        | none => exact released
        | some seen => exact first.released seen report
      exact ih kept (step_released documented (Or.inl off)) (by rw [constants]; exact later) nearer

end Rest

/-- The robot comes to rest once no arrow is pressed, and also when a report that toggles
a state is not followed by another one: the toggle lets go of the arrows it came with. -/
theorem comes_to_rest (wiiuse : Wiiuse) (documented : wiiuse.Documented) (loop : ControlLoop)
    (inRange : loop.InRange) (first : ControlLoop.Turn)
    (lets : wiiuse.Released (first.report.getD loop.device) ∨
      wiiuse.firstToggle (first.report.getD loop.device) ≠ 0)
    (least : ℚ) (positive : 0 < least) (turns : List ControlLoop.Turn)
    (coasts : ∀ turn ∈ turns, turn.Coasts wiiuse loop.wiimote.constants least)
    (long : 2 * loop.wiimote.constants.linearMax + least ≤ turns.length * least ∧
      2 * loop.wiimote.constants.angularMax + least ≤ turns.length * least) :
    (Run.final (ControlLoop.step wiiuse) loop (first :: turns)).AtRest := by
  obtain ⟨kept, constants⟩ := step_inRange wiiuse inRange first
  rw [← constants] at coasts long
  rw [Run.final_cons]
  exact coasting_rests documented positive kept (step_released documented lets) coasts
    ⟨(restDistance_le kept.1 positive).trans long.1, (restDistance_le kept.2 positive).trans long.2⟩

theorem comes_to_rest_home :
    (Run.final (ControlLoop.step buttonBits) backwards
      (homeWhileUp :: List.replicate 21 { report := none, elapsed := 1 })).AtRest :=
  comes_to_rest buttonBits buttonBits_documented backwards
    ⟨by norm_num [backwards, abs_of_neg], by norm_num [backwards]⟩ homeWhileUp
    (Or.inr (by decide)) 1 one_pos _
    (by
      intro turn member
      obtain ⟨-, rfl⟩ := List.mem_replicate.mp member
      exact ⟨fun _ seen => (Option.some_ne_none _ seen.symm).elim, by norm_num [backwards], by norm_num [backwards]⟩)
    ⟨by norm_num [backwards], by norm_num [backwards]⟩

end Sentinet.Controllers
