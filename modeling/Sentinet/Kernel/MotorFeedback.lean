import Sentinet.Kernel.Serial

namespace Sentinet.Kernel

open Sentinet.Data Sentinet.Messages

/-! What the sender thread learns about the motors, over a run of sends and
reads.  A read that gives up drops what it took, so the next one may start
anywhere in a response, and one byte is all it checks. -/

/-- A response on the wire. -/
def StateResp.frame (response : StateResp) : List UInt8 :=
  responseMark :: (LittleEndian.encode 4 response.v.toNat ++
    LittleEndian.encode 4 response.w.toNat ++ LittleEndian.encode 4 response.wErr.toNat ++
      LittleEndian.encode 4 response.dt.toNat)

def frames (sent : List StateResp) : List UInt8 := sent.flatMap StateResp.frame

/-- The caller's values after a response. -/
def StateResp.values (response : StateResp) : MeasuredValues :=
  { velocity := response.v, omega := response.w, wErr := response.wErr, dt := response.dt }

structure Teensy where
  dev : TeensyDevice
  values : MeasuredValues

/-- One call of the sender thread. -/
inductive LinkCall where
  | sendDrive (lin ang : Word)
  | readTeensyResponse

def LinkCall.apply (teensy : Teensy) : LinkCall → Teensy
  | .sendDrive lin ang => { teensy with dev := (Kernel.sendDrive teensy.dev lin ang).2 }
  | .readTeensyResponse =>
      let (_, dev, values) := Kernel.readTeensyResponse teensy.dev teensy.values
      { dev, values }

/-- A read goes through to the assignments. -/
def TeensyDevice.Updates (device : TeensyDevice) : Prop :=
  0 ≤ (serialportRead device.port device.buffer responseSize 1).stat ∧
    (serialportRead device.port device.buffer responseSize 1).buf 0 = responseMark

/-- A call takes over one response that the device sent, as a whole, or nothing. -/
def LinkCall.TakesOneResponse (sent : List StateResp) (teensy : Teensy) (call : LinkCall) : Prop :=
  match call with
  | .sendDrive lin ang =>
      ((LinkCall.sendDrive lin ang).apply teensy).dev.respMsg = teensy.dev.respMsg ∧
        ((LinkCall.sendDrive lin ang).apply teensy).values = teensy.values
  | .readTeensyResponse =>
      (teensy.dev.Updates → ∃ response ∈ sent,
        (LinkCall.readTeensyResponse.apply teensy).dev.respMsg = response ∧
          (LinkCall.readTeensyResponse.apply teensy).values = response.values) ∧
      (¬ teensy.dev.Updates →
        (LinkCall.readTeensyResponse.apply teensy).dev.respMsg = teensy.dev.respMsg ∧
          (LinkCall.readTeensyResponse.apply teensy).values = teensy.values)

/-- A read does not find a whole response's worth of bytes that begin with the
mark in the middle of a response. -/
def LinkCall.StartsCleanly (teensy : Teensy) (call : LinkCall) : Prop :=
  match call with
  | .sendDrive _ _ => True
  | .readTeensyResponse =>
      responseSize ∣ teensy.dev.port.output.length ∨
        teensy.dev.port.output.head? ≠ some responseMark ∨
          ¬ teensy.dev.port.DeliversInOnePiece responseSize

section Frames

variable {sent : List StateResp} {response : StateResp} {output : List UInt8} {memory : Memory}

@[simp] theorem StateResp.frame_length : response.frame.length = responseSize := rfl

theorem frames_cons (response : StateResp) (rest : List StateResp) :
    frames (response :: rest) = response.frame ++ frames rest := rfl

theorem frames_length (sent : List StateResp) : (frames sent).length = responseSize * sent.length := by
  induction sent with
  | nil => rfl
  | cons response rest ih =>
      rw [frames_cons, List.length_append, ih, StateResp.frame_length, List.length_cons]
      ring

/-- Where a response starts, whole responses follow. -/
theorem frames_of_aligned (suffix : output <:+ frames sent) (aligned : responseSize ∣ output.length) :
    ∃ later, later <:+ sent ∧ output = frames later := by
  induction sent with
  | nil => exact ⟨[], List.suffix_refl _, List.suffix_nil.mp suffix⟩
  | cons response rest ih =>
      have size : responseSize = 17 := rfl
      have total := frames_length rest
      have bound := suffix.length_le
      rw [frames_cons] at suffix
      rw [frames_cons, List.length_append, StateResp.frame_length] at bound
      by_cases whole : output.length = (response.frame ++ frames rest).length
      · exact ⟨response :: rest, List.suffix_refl _, suffix.eq_of_length whole⟩
      · rw [List.length_append, StateResp.frame_length] at whole
        obtain ⟨count, length⟩ := aligned
        have shorter : output.length ≤ (frames rest).length := by
          rw [size] at *
          omega
        have inRest : output <:+ frames rest :=
          List.suffix_of_suffix_length_le suffix (List.suffix_append _ _) shorter
        obtain ⟨later, kept, same⟩ := ih inRest
        exact ⟨later, kept.trans (List.suffix_cons response rest), same⟩

theorem load_frame (response : StateResp) (memory : Memory) :
    (memory.store 0 response.frame).load32 1 = response.v ∧
      (memory.store 0 response.frame).load32 5 = response.w ∧
      (memory.store 0 response.frame).load32 9 = response.wErr ∧
      (memory.store 0 response.frame).load32 13 = response.dt := by
  have field {first last : List UInt8} {value : Word} {position : Nat}
      (split : response.frame = first ++ LittleEndian.encode 4 value.toNat ++ last)
      (length : first.length = position) :
      (memory.store 0 response.frame).load32 position = value := by
    rw [split]
    exact Memory.load32_store_middle memory length
  let v := LittleEndian.encode 4 response.v.toNat
  let w := LittleEndian.encode 4 response.w.toNat
  let wErr := LittleEndian.encode 4 response.wErr.toNat
  let dt := LittleEndian.encode 4 response.dt.toNat
  refine ⟨@field [responseMark] (w ++ wErr ++ dt) _ _ ?_ rfl,
    @field ([responseMark] ++ v) (wErr ++ dt) _ _ ?_ rfl,
    @field ([responseMark] ++ v ++ w) dt _ _ ?_ rfl,
    @field ([responseMark] ++ v ++ w ++ wErr) [] _ _ ?_ rfl⟩
  all_goals simp [StateResp.frame, v, w, wErr, dt]

end Frames

section Calls

variable {sent : List StateResp} {teensy : Teensy}

theorem readTeensyResponse_kept (kept : ¬ teensy.dev.Updates) :
    (LinkCall.readTeensyResponse.apply teensy).dev.respMsg = teensy.dev.respMsg ∧
      (LinkCall.readTeensyResponse.apply teensy).values = teensy.values := by
  by_cases failed : (serialportRead teensy.dev.port teensy.dev.buffer responseSize 1).stat < 0
  · simp only [LinkCall.apply, readTeensyResponse, if_pos failed, and_self]
  · have unmarked : (serialportRead teensy.dev.port teensy.dev.buffer responseSize 1).buf 0 ≠
        responseMark := fun marked => kept ⟨Int.not_lt.mp failed, marked⟩
    simp only [LinkCall.apply, readTeensyResponse, if_neg failed, if_pos unmarked, and_self]

/-- An update takes its seventeen bytes from the output in one piece. -/
theorem TeensyDevice.Updates.piece (updates : teensy.dev.Updates) :
    teensy.dev.port.DeliversInOnePiece responseSize ∧
      (serialportRead teensy.dev.port teensy.dev.buffer responseSize 1).buf =
        teensy.dev.buffer.store 0 (teensy.dev.port.output.take responseSize) := by
  obtain ⟨_, piece, stored⟩ | failed := serialportReadFrom_once (i := 0)
  · exact ⟨piece, stored⟩
  · exact absurd updates.1 (Int.not_le.mpr failed)

theorem TeensyDevice.Updates.marked (updates : teensy.dev.Updates) :
    teensy.dev.port.output.head? = some responseMark := by
  obtain ⟨⟨long, _⟩, stored⟩ := updates.piece
  have first := updates.2
  cases output : teensy.dev.port.output with
  | nil =>
      rw [output] at long
      exact absurd long (by decide)
  | cons value rest =>
      rw [stored, output] at first
      exact congrArg some first

theorem readTeensyResponse_frame {response : StateResp} {rest : List UInt8}
    (updates : teensy.dev.Updates) (output : teensy.dev.port.output = response.frame ++ rest) :
    (LinkCall.readTeensyResponse.apply teensy).dev.respMsg = response ∧
      (LinkCall.readTeensyResponse.apply teensy).values = response.values := by
  have stored := updates.piece.2
  rw [output, List.take_left' StateResp.frame_length] at stored
  obtain ⟨v, w, wErr, dt⟩ := load_frame response teensy.dev.buffer
  rw [← stored] at v w wErr dt
  have complete := Int.not_lt.mpr updates.1
  have marked := not_not.mpr updates.2
  simp only [LinkCall.apply, readTeensyResponse, if_neg complete, if_neg marked, v, w, wErr, dt]
  exact ⟨trivial, rfl⟩

theorem LinkCall.takesOneResponse (suffix : teensy.dev.port.output <:+ frames sent)
    (call : LinkCall) (clean : call.StartsCleanly teensy) : call.TakesOneResponse sent teensy := by
  cases call with
  | sendDrive lin ang => exact ⟨rfl, rfl⟩
  | readTeensyResponse =>
      refine ⟨?_, readTeensyResponse_kept⟩
      intro updates
      have aligned : responseSize ∣ teensy.dev.port.output.length :=
        clean.resolve_right fun dirty =>
          dirty.elim (absurd updates.marked) (absurd updates.piece.1)
      obtain ⟨later, kept, output⟩ := frames_of_aligned suffix aligned
      cases later with
      | nil =>
          have marked := updates.marked
          rw [output] at marked
          contradiction
      | cons response rest =>
          exact ⟨response, kept.subset List.mem_cons_self,
            readTeensyResponse_frame updates (output.trans (frames_cons response rest))⟩

theorem LinkCall.apply_output (call : LinkCall) (suffix : teensy.dev.port.output <:+ frames sent) :
    (call.apply teensy).dev.port.output <:+ frames sent := by
  cases call with
  | sendDrive lin ang => exact suffix
  | readTeensyResponse =>
      have taken : (serialportRead teensy.dev.port teensy.dev.buffer responseSize 1).port.output <:+
          teensy.dev.port.output := serialportReadFrom_output
      have port : (LinkCall.readTeensyResponse.apply teensy).dev.port =
          (serialportRead teensy.dev.port teensy.dev.buffer responseSize 1).port := by
        simp only [LinkCall.apply, Kernel.readTeensyResponse]
        split
        · rfl
        · split
          · rfl
          · rfl
      rw [port]
      exact taken.trans suffix

end Calls

/-- As long as no read begins with the mark in the middle of a response, every
read takes over one response as it was sent, or nothing. -/
theorem feedback_unstitched (sent : List StateResp) (teensy : Teensy)
    (output : teensy.dev.port.output = frames sent) (calls : List LinkCall)
    (clean : Run.EachStep LinkCall.apply LinkCall.StartsCleanly teensy calls) :
    Run.EachStep LinkCall.apply (LinkCall.TakesOneResponse sent) teensy calls :=
  Run.eachStep_imp (fun state : Teensy => state.dev.port.output <:+ frames sent)
    (fun _ call suffix => call.apply_output suffix)
    (fun _ call suffix clean => call.takesOneResponse suffix clean)
    (output ▸ List.suffix_refl _) clean

/-- A device that nothing was read from. -/
def freshTeensy (sent : List StateResp) (attempts : List Attempt) : Teensy where
  dev := { port := { output := frames sent, attempts }, msg := { lin := 0, ang := 0 }
           respMsg := { v := 0, w := 0, wErr := 0, dt := 0 }, buffer := fun _ => 0 }
  values := { omega := 0, velocity := 0, wErr := 0, dt := 0 }

/-- Two responses; the velocity of the first begins with the byte of the mark. -/
def markedResponses : List StateResp :=
  [{ v := 0x3F800072, w := 1, wErr := 2, dt := 3 }, { v := 4, w := 5, wErr := 6, dt := 7 }]

theorem feedback_unstitched_retry :
    Run.EachStep LinkCall.apply (LinkCall.TakesOneResponse markedResponses)
      (freshTeensy markedResponses [.empty])
      [.readTeensyResponse, .sendDrive 8 9, .readTeensyResponse, .readTeensyResponse] :=
  feedback_unstitched markedResponses (freshTeensy markedResponses [.empty]) rfl _
    ⟨Or.inl (by decide), trivial, Or.inl (by decide), Or.inl (by decide), trivial⟩

/-- The first read takes one byte and gives up.  The second starts with the
velocity, whose first byte passes for the mark, and ends with the mark of the
second response. -/
theorem stitched_feedback :
    ((Run.final LinkCall.apply (freshTeensy markedResponses [.ready, .empty])
        [.readTeensyResponse, .readTeensyResponse]).values =
      { velocity := 0x013F8000, omega := 0x02000000, wErr := 0x03000000, dt := 0x72000000 }) ∧
      ¬ Run.EachStep LinkCall.apply (LinkCall.TakesOneResponse markedResponses)
        (freshTeensy markedResponses [.ready, .empty])
        [.readTeensyResponse, .readTeensyResponse] := by
  have updated : (LinkCall.readTeensyResponse.apply
      (freshTeensy markedResponses [.ready, .empty])).dev.Updates := ⟨by decide, by decide⟩
  refine ⟨by decide, ?_⟩
  intro every
  obtain ⟨response, member, taken, _⟩ := every.2.1.1 updated
  subst taken
  exact absurd member (by decide)

end Sentinet.Kernel
