import Mathlib.Logic.Function.Iterate

/-! Loops that call for what is left of a size until nothing is left, over calls that may move a
part of it, may be interrupted, and may end or fail.
-/

namespace Transition

-----------------------------------------------------------------------------------------
-- The loop
-----------------------------------------------------------------------------------------

/-- What a call that is asked to move `wanted` units comes to: a count, 0 at an end, or -1 with the
number of an error, as the loop reads it.
-/
structure CallResult (wanted : Nat) where
  ret : Int
  errno : Int
  ret_ge : -1 ≤ ret
  ret_le : ret ≤ wanted

/-- The results of the calls, in whatever way they depend on what is asked for. -/
def Schedule : Type := (call wanted : Nat) → CallResult wanted

/-- A call that was made: the offset from which it was to move, what it was asked for, and its
result.
-/
structure Call where
  offset : Int
  wanted : Int
  ret : Int
  errno : Int

/-- How much the call moved. -/
def Call.moved (c : Call) : Int := if c.ret = -1 then 0 else c.ret

/-- The call ended or failed, with another error than the one that is tried again. -/
def Call.Stops (retried : Int) (c : Call) : Prop := c.ret = 0 ∨ c.ret = -1 ∧ c.errno ≠ retried

instance (retried : Int) : DecidablePred (Call.Stops retried) :=
  fun _ => inferInstanceAs (Decidable (_ ∨ _))

/-- A call that stops the loop moves nothing. -/
theorem Call.Stops.moved {retried : Int} {c : Call} (stops : c.Stops retried) : c.moved = 0 := by
  rw [Call.moved]
  split
  · rfl
  · next other => exact stops.resolve_right (fun failed => other failed.1)

/-- A call that goes on and has no count was interrupted. -/
theorem Call.interrupted_of_goesOn {retried : Int} {c : Call} (goesOn : ¬c.Stops retried)
    (failed : c.ret = -1)
    : c.errno = retried := by
  by_contra differs
  exact goesOn (Or.inr ⟨failed, differs⟩)

/-- The variables of the loop, the place that the calls move to, and its result once it has
returned. The calls that it made are kept besides.
-/
structure TransferLoop (σ : Type*) where
  total : Int
  sizeleft : Int
  place : σ
  calls : List Call
  returned : Option Int

variable {σ : Type*}

namespace TransferLoop

def start (size : Int) (place : σ) : TransferLoop σ where
  total := 0
  sizeleft := size
  place := place
  calls := []
  returned := none

/-- The next call of the loop. -/
def nextCall (s : TransferLoop σ) (schedule : Schedule) : Call :=
  let result := schedule s.calls.length s.sizeleft.toNat
  ⟨s.total, s.sizeleft, result.ret, result.errno⟩

/-- The loop behind a call that neither ended nor failed. -/
def advance (move : σ → (offset count : Nat) → σ) (s : TransferLoop σ) (c : Call)
    : TransferLoop σ :=
  { s with
    total := s.total + c.moved
    sizeleft := s.sizeleft - c.moved
    place := move s.place s.total.toNat c.moved.toNat
    calls := s.calls ++ [c] }

/-- A turn of the loop, or its end. -/
def turn (move : σ → (offset count : Nat) → σ) (retried : Int) (schedule : Schedule)
    (s : TransferLoop σ)
    : TransferLoop σ :=
  match s.returned with
  | some _ => s
  | none =>
      if 0 < s.sizeleft then
        let c := s.nextCall schedule
        if c.Stops retried then { s with calls := s.calls ++ [c], returned := some c.ret }
        else s.advance move c
      else { s with returned := some s.total }

section

variable {move : σ → (offset count : Nat) → σ} {retried : Int} {schedule : Schedule}
  {s : TransferLoop σ}

theorem turn_of_stops (running : s.returned = none) (left : 0 < s.sizeleft)
    (stops : (s.nextCall schedule).Stops retried)
    : s.turn move retried schedule
      = { s with
          calls := s.calls ++ [s.nextCall schedule]
          returned := some (s.nextCall schedule).ret } := by
  rw [turn, running]
  dsimp only
  rw [if_pos left, if_pos stops]

theorem turn_of_goesOn (running : s.returned = none) (left : 0 < s.sizeleft)
    (goesOn : ¬(s.nextCall schedule).Stops retried)
    : s.turn move retried schedule = s.advance move (s.nextCall schedule) := by
  rw [turn, running]
  dsimp only
  rw [if_pos left, if_neg goesOn]

end

/-- All that a turn can do. -/
inductive Turned (move : σ → (offset count : Nat) → σ) (retried : Int) (schedule : Schedule)
    (s : TransferLoop σ)
    : TransferLoop σ → Prop where
  | stays (r : Int) (returned : s.returned = some r) : Turned move retried schedule s s
  | exits (running : s.returned = none) (nothing : s.sizeleft ≤ 0)
      : Turned move retried schedule s { s with returned := some s.total }
  | stops (running : s.returned = none) (left : 0 < s.sizeleft)
      (stops : (s.nextCall schedule).Stops retried)
      : Turned move retried schedule s
          { s with
            calls := s.calls ++ [s.nextCall schedule]
            returned := some (s.nextCall schedule).ret }
  | goesOn (running : s.returned = none) (left : 0 < s.sizeleft)
      (goesOn : ¬(s.nextCall schedule).Stops retried)
      : Turned move retried schedule s (s.advance move (s.nextCall schedule))

variable {move : σ → (offset count : Nat) → σ} {retried : Int} {schedule : Schedule}
  {s t : TransferLoop σ}

theorem turned_turn (s : TransferLoop σ)
    : s.Turned move retried schedule (s.turn move retried schedule) := by
  cases returned : s.returned with
  | some r =>
      rw [turn, returned]
      exact .stays r returned
  | none =>
      by_cases left : 0 < s.sizeleft
      · by_cases stops : (s.nextCall schedule).Stops retried
        · rw [turn_of_stops returned left stops]
          exact .stops returned left stops
        · rw [turn_of_goesOn returned left stops]
          exact .goesOn returned left stops
      · rw [turn, returned]
        dsimp only
        rw [if_neg left]
        exact .exits returned (Int.not_lt.mp left)

-----------------------------------------------------------------------------------------
-- The calls
-----------------------------------------------------------------------------------------

theorem nextCall_offset : (s.nextCall schedule).offset = s.total := rfl

/-- A call that goes on moves no more than is left, and something unless it was interrupted. -/
theorem nextCall_moved (left : 0 < s.sizeleft) (goesOn : ¬(s.nextCall schedule).Stops retried)
    : 0 ≤ (s.nextCall schedule).moved
      ∧ (s.nextCall schedule).moved ≤ s.sizeleft
      ∧ ((s.nextCall schedule).ret ≠ -1 → 0 < (s.nextCall schedule).moved) := by
  have low : -1 ≤ (s.nextCall schedule).ret := (schedule _ _).ret_ge
  have high : (s.nextCall schedule).ret ≤ s.sizeleft.toNat := (schedule _ _).ret_le
  obtain ⟨some_, _⟩ := not_or.mp goesOn
  rw [Call.moved]
  split <;> omega

/-- The offset behind a call that goes on. -/
theorem toNat_total_advance (natural : 0 ≤ s.total) (left : 0 < s.sizeleft)
    (goesOn : ¬(s.nextCall schedule).Stops retried)
    : (s.advance move (s.nextCall schedule)).total.toNat
      = s.total.toNat + (s.nextCall schedule).moved.toNat :=
  Int.toNat_add natural (nextCall_moved left goesOn).1

/-- The calls begin one after the other where the one in front of them has come to. -/
def Consecutive : Int → List Call → Int → Prop
  | offset, [], reached => offset = reached
  | offset, c :: rest, reached => c.offset = offset ∧ Consecutive (offset + c.moved) rest reached

theorem Consecutive.snoc {calls : List Call} {offset reached : Int}
    (calls_ : Consecutive offset calls reached) {c : Call} (next : c.offset = reached)
    : Consecutive offset (calls ++ [c]) (reached + c.moved) := by
  induction calls generalizing offset with
  | nil =>
      have here : offset = reached := calls_
      rw [here]
      exact ⟨next, rfl⟩
  | cons first rest ih => exact ⟨calls_.1, ih calls_.2⟩

-----------------------------------------------------------------------------------------
-- What every turn keeps
-----------------------------------------------------------------------------------------

/-- A move of nothing does nothing, and a move behind another one is one move. -/
structure MovesOn (move : σ → (offset count : Nat) → σ) : Prop where
  nothing : ∀ place offset, move place offset 0 = place
  further : ∀ place m n, move (move place 0 m) m n = move place 0 (m + n)

/-- The offset and what is left make up the size, and the place has what one move up to the offset
leaves there. Every call was asked for exactly what was left then.
-/
structure Progress (move : σ → (offset count : Nat) → σ) (size : Int) (place : σ)
    (s : TransferLoop σ)
    : Prop where
  sum : s.total + s.sizeleft = size
  natural : 0 ≤ s.total
  left : s.sizeleft < 0 → s.total = 0
  moved : s.place = move place 0 s.total.toNat
  asked : ∀ c ∈ s.calls, 0 ≤ c.offset ∧ 0 < c.wanted ∧ c.offset + c.wanted = size
  consecutive : Consecutive 0 s.calls s.total

/-- The loop has returned either at its end or with the result of a call that stopped it. -/
structure Answered (retried : Int) (s : TransferLoop σ) : Prop where
  returned
    : ∀ r, s.returned = some r → r = s.total ∧ s.sizeleft ≤ 0 ∨ (r = 0 ∨ r = -1) ∧ 0 < s.sizeleft
  stops : ∀ c ∈ s.calls, c.Stops retried → s.returned = some c.ret

theorem progress_start (laws : MovesOn move) (size : Int) (place : σ)
    : Progress move size place (start size place) where
  sum := Int.zero_add size
  natural := Int.le_refl 0
  left _ := rfl
  moved := (laws.nothing place 0).symm
  asked _ member := absurd member List.not_mem_nil
  consecutive := rfl

variable {size : Int} {place : σ}

/-- The next call is asked for what is left. -/
theorem Progress.asked_nextCall (progress : Progress move size place s) (left : 0 < s.sizeleft)
    : ∀ c ∈ s.calls ++ [s.nextCall schedule],
        0 ≤ c.offset ∧ 0 < c.wanted ∧ c.offset + c.wanted = size := by
  intro c member
  rcases List.mem_append.mp member with earlier | last
  · exact progress.asked c earlier
  · rw [List.mem_singleton.mp last]
    exact ⟨progress.natural, left, progress.sum⟩

theorem Progress.advance (laws : MovesOn move) (progress : Progress move size place s)
    (left : 0 < s.sizeleft) (goesOn : ¬(s.nextCall schedule).Stops retried)
    : Progress move size place (s.advance move (s.nextCall schedule)) := by
  obtain ⟨low, high, _⟩ := nextCall_moved left goesOn
  have sum := progress.sum
  have natural := progress.natural
  refine {
    sum := ?_
    natural := Int.add_nonneg natural low
    left := fun negative => ?_
    moved := ?_
    asked := progress.asked_nextCall left
    consecutive := progress.consecutive.snoc rfl
  }
  · simp only [TransferLoop.advance]
    omega
  · simp only [TransferLoop.advance] at negative
    omega
  · rw [toNat_total_advance natural left goesOn, ← laws.further, ← progress.moved]
    rfl

theorem Progress.turned (laws : MovesOn move) (progress : Progress move size place s)
    (turned : s.Turned move retried schedule t)
    : Progress move size place t := by
  cases turned with
  | stays => exact progress
  | exits => exact { progress with }
  | stops _ left stops =>
      have next : (s.nextCall schedule).offset = s.total := nextCall_offset
      have consecutive := progress.consecutive.snoc next
      rw [Call.Stops.moved stops, Int.add_zero] at consecutive
      exact { progress with
        asked := progress.asked_nextCall left
        consecutive := consecutive }
  | goesOn _ left goesOn => exact progress.advance laws left goesOn

/-- The turns keep it, by induction on their number. -/
theorem progress_turns (laws : MovesOn move) (retried : Int) (schedule : Schedule) (size : Int)
    (place : σ) (n : Nat)
    : Progress move size place ((turn move retried schedule)^[n] (start size place)) := by
  induction n with
  | zero => exact progress_start laws size place
  | succ n ih =>
      rw [Function.iterate_succ_apply']
      exact ih.turned laws (turned_turn _)

theorem Answered.turned (answered : Answered retried s)
    (turned : s.Turned move retried schedule t)
    : Answered retried t := by
  have none_stops (running : s.returned = none) : ∀ c ∈ s.calls, ¬c.Stops retried := by
    intro c member stops
    have returned := answered.stops c member stops
    rw [running] at returned
    contradiction
  cases turned with
  | stays => exact answered
  | exits running nothing =>
      refine ⟨fun r returned => ?_, fun c member stops => ?_⟩
      · cases returned
        exact Or.inl ⟨rfl, nothing⟩
      · exact absurd stops (none_stops running c member)
  | stops running left stops =>
      refine ⟨fun r returned => ?_, fun c member stops' => ?_⟩
      · cases returned
        exact Or.inr ⟨stops.imp_right And.left, left⟩
      · rcases List.mem_append.mp member with earlier | last
        · exact absurd stops' (none_stops running c earlier)
        · rw [List.mem_singleton.mp last]
  | goesOn running left goesOn =>
      refine ⟨fun r returned => ?_, fun c member stops => ?_⟩
      · have stays : s.returned = some r := returned
        rw [running] at stays
        contradiction
      · rcases List.mem_append.mp member with earlier | last
        · exact absurd stops (none_stops running c earlier)
        · rw [List.mem_singleton.mp last] at stops
          exact absurd stops goesOn

theorem answered_turns (move : σ → (offset count : Nat) → σ) (retried : Int) (schedule : Schedule)
    (size : Int) (place : σ) (n : Nat)
    : Answered retried ((turn move retried schedule)^[n] (start size place)) := by
  induction n with
  | zero =>
      refine ⟨fun r returned => ?_, fun c member => absurd member List.not_mem_nil⟩
      have running : none = some r := returned
      contradiction
  | succ n ih =>
      rw [Function.iterate_succ_apply']
      exact ih.turned (turned_turn _)

/-- A loop that has returned a positive count has moved the whole size. -/
theorem whole_of_pos (progress : Progress move size place s) (answered : Answered retried s)
    {r : Int} (returned : s.returned = some r) (positive : 0 < r)
    : r = size ∧ s.total = size := by
  have sum := progress.sum
  have left := progress.left
  rcases answered.returned r returned with ⟨same, nothing⟩ | ⟨stopped, _⟩
  · omega
  · omega

-----------------------------------------------------------------------------------------
-- The end of the loop
-----------------------------------------------------------------------------------------

/-- The loop is at a call that will be interrupted. -/
def Interrupted (retried : Int) (schedule : Schedule) (s : TransferLoop σ) : Prop :=
  s.returned = none ∧ 0 < s.sizeleft ∧ (s.nextCall schedule).ret = -1
    ∧ (s.nextCall schedule).errno = retried

/-- No turn gives anything back. -/
theorem Turned.sizeleft_le (turned : s.Turned move retried schedule t)
    : t.sizeleft ≤ s.sizeleft := by
  cases turned with
  | stays => exact Int.le_refl _
  | exits => exact Int.le_refl _
  | stops => exact Int.le_refl _
  | goesOn _ left goesOn =>
      obtain ⟨low, _⟩ := nextCall_moved left goesOn
      exact Int.sub_le_self _ low

theorem sizeleft_turns_le (s : TransferLoop σ) (n : Nat)
    : ((turn move retried schedule)^[n] s).sizeleft ≤ s.sizeleft := by
  induction n with
  | zero => exact Int.le_refl _
  | succ n ih =>
      rw [Function.iterate_succ_apply']
      exact Int.le_trans (turned_turn _).sizeleft_le ih

/-- A turn that is not interrupted returns, or moves something. -/
theorem Turned.returns_or_moves (turned : s.Turned move retried schedule t)
    (other : ¬s.Interrupted retried schedule)
    : (∃ r, t.returned = some r) ∨ 0 < s.sizeleft ∧ t.sizeleft < s.sizeleft := by
  cases turned with
  | stays r returned => exact Or.inl ⟨r, returned⟩
  | exits => exact Or.inl ⟨_, rfl⟩
  | stops => exact Or.inl ⟨_, rfl⟩
  | goesOn running left goesOn =>
      obtain ⟨_, _, moves⟩ := nextCall_moved left goesOn
      have counted : (s.nextCall schedule).ret ≠ -1 := by
        intro failed
        exact other ⟨running, left, failed, Call.interrupted_of_goesOn goesOn failed⟩
      exact Or.inr ⟨left, Int.sub_lt_self _ (moves counted)⟩

/-- Unless it is interrupted for ever, the loop returns, by induction on what is left. -/
theorem returns_or_interrupted {left : Nat} (s : TransferLoop σ) (enough : s.sizeleft ≤ left)
    : (∃ n r, ((turn move retried schedule)^[n] s).returned = some r)
      ∨ ∃ m, ∀ n ≥ m, ((turn move retried schedule)^[n] s).Interrupted retried schedule := by
  induction left generalizing s with
  | zero =>
      refine Or.inl ⟨1, ?_⟩
      have idle : ¬s.Interrupted retried schedule := fun interrupted => by
        have left := interrupted.2.1
        omega
      refine ((turned_turn s).returns_or_moves idle).resolve_right (fun moves => ?_)
      omega
  | succ left ih =>
      by_cases always : ∀ n, ((turn move retried schedule)^[n] s).Interrupted retried schedule
      · exact Or.inr ⟨0, fun n _ => always n⟩
      · obtain ⟨k, other⟩ := not_forall.mp always
        have before : ((turn move retried schedule)^[k] s).sizeleft ≤ s.sizeleft :=
          sizeleft_turns_le s k
        have next : ((turn move retried schedule)^[k] s).Turned move retried schedule
            ((turn move retried schedule)^[k + 1] s) := by
          rw [Function.iterate_succ_apply']
          exact turned_turn _
        rcases next.returns_or_moves other with ⟨r, returned⟩ | ⟨_, less⟩
        · exact Or.inl ⟨k + 1, r, returned⟩
        · rcases ih ((turn move retried schedule)^[k + 1] s) (by omega) with
            ⟨n, r, returned⟩ | ⟨m, interrupted⟩
          · rw [← Function.iterate_add_apply] at returned
            exact Or.inl ⟨n + (k + 1), r, returned⟩
          · refine Or.inr ⟨m + (k + 1), fun n late => ?_⟩
            have behind := interrupted (n - (k + 1)) (by omega)
            rw [← Function.iterate_add_apply, Nat.sub_add_cancel (by omega)] at behind
            exact behind

end TransferLoop

end Transition
