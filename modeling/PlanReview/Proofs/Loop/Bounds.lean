import PlanReview.Proofs.Loop.Saves
import PlanReview.Proofs.Loop.Turn

/-!
# The end of the loop

The loop is followed here without counting its rounds (`Looping`) : it starts iterations for as
long as no limit is reached, until one of them ends the run. That it ends at all is the work of the
limit on iterations. An iteration after which the loop goes on has moved the iteration number up by
one (`iteration_again`), so after as many of them as were left at the beginning the limit is
reached, whatever the other limits say (`rounds_within_limits`).
-/

namespace PlanReview

namespace Guardrail

/-- None of the limits is reached. -/
structure Unreached (limits : Limits) (now : Instant) (s : SessionState) : Prop where
  phaseErrors : s.consecutivePhaseErrors < max 1 limits.maxPhaseErrors
  tokens : limits.maxTotalTokens < 0 ∨ s.totalTokens ≤ limits.maxTotalTokens
  iterations : s.turns < limits.maxIterations
  toolCalls : s.toolCalls < limits.maxToolCalls
  time : ¬ s.elapsed now ≥ limits.timeoutSeconds

theorem check_eq_none_iff {limits : Limits} {now : Instant} {s : SessionState} :
    check limits now s = none ↔ Unreached limits now s := by
  unfold check
  constructor
  · intro h
    dsimp only at h
    repeat' split at h
    all_goals try contradiction
    rename_i hphase htokens hiterations htools htime
    refine ⟨by omega, ?_, by omega, by omega, htime⟩
    rw [Bool.and_eq_true, decide_eq_true_iff, decide_eq_true_iff] at htokens
    omega
  · intro h
    have htokens : ¬ (0 ≤ limits.maxTotalTokens && limits.maxTotalTokens < s.totalTokens) := by
      rw [Bool.and_eq_true, decide_eq_true_iff, decide_eq_true_iff]
      have := h.tokens
      omega
    dsimp only
    rw [if_neg (Int.not_le.2 h.phaseErrors), if_neg htokens, if_neg (Int.not_le.2 h.iterations),
      if_neg (Int.not_le.2 h.toolCalls), if_neg h.time]

end Guardrail

open Guardrail (Unreached check_eq_none_iff)

variable {c : Controller} {resume : Option Resume} {r r' : Run}

/-! ## Following the loop -/

/-- The loop, entered at the run `r`, starts iterations at the runs `starts` and then ends with an
answer, in the run after it. -/
inductive Looping (c : Controller) (resume : Option Resume) :
    List Run → Run → Except Failure Unit × Run → Prop where
  | stopped {r r' : Run} : stopAtLimit c r = (.ok true, r') →
      Looping c resume [] r (.ok (), r')
  | indescribable {r r' : Run} {f : Failure} : stopAtLimit c r = (.error f, r') →
      Looping c resume [] r (.error f, r')
  | finished {r r' : Run} : stopAtLimit c r = (.ok false, r) →
      iteration c resume r = (.ok .finished, r') → Looping c resume [r] r (.ok (), r')
  | failed {r r' : Run} {f : Failure} : stopAtLimit c r = (.ok false, r) →
      iteration c resume r = (.error f, r') → Looping c resume [r] r (.error f, r')
  | again {r r₁ : Run} {starts : List Run} {out : Except Failure Unit × Run} :
      stopAtLimit c r = (.ok false, r) → iteration c resume r = (.ok .again, r₁) →
      Looping c resume starts r₁ out → Looping c resume (r :: starts) r out

/-! ## The limits -/

/-- The loop is not stopped only where no limit is reached. -/
theorem stopAtLimit_unreached (c : Controller) (r : Run) :
    Ends (stopAtLimit c) r
      (fun stopped r' => stopped = false → r' = r ∧ Unreached c.limits r.workspace.now r.state)
      fun _ _ => True := by
  rw [ends_stopAtLimit]
  split
  · rename_i hnone
    exact fun _ => ⟨rfl, check_eq_none_iff.1 hnone⟩
  · split
    · exact True.intro
    · exact nofun

theorem iterationsLeft_pos {s : SessionState} {now : Instant} (h : Unreached c.limits now s) :
    0 < c.iterationsLeft s := by
  have hturns := h.iterations
  unfold SessionState.turns at hturns
  unfold Controller.iterationsLeft
  omega

/-! ## One iteration -/

/-- The iteration number and the one that iterations are counted from. -/
def SessionState.count (s : SessionState) : Int × Int :=
  (s.iteration, s.turnBase)

theorem SessionState.Stays.count {s t : SessionState} (h : s.Stays t) : t.count = s.count :=
  Prod.ext h.iteration h.turnBase

theorem revising_count (s : SessionState) (now : String) (j : Judged) (review : Review)
    (tokensBefore : Int) : (s.revising now j review tokensBefore).count = s.count := rfl

/-- An iteration after which the loop goes on moves the iteration number up by one. -/
theorem iteration_again (h : iteration c resume r = (.ok .again, r')) :
    r'.state.count = (r.state.iteration + 1, r.state.turnBase) := by
  have hjudge := @judge_works c (fun _ => True) (fun _ _ _ _ _ _ _ _ => True.intro) resume r.opened
  cases (iteration_turn c resume r).of_ok h with
  | phaseError hphase hsave =>
    obtain ⟨w, -, rfl⟩ := RunM.save_run hsave
    exact (hjudge.of_error hphase).stays.count
  | decided hjudged hwrite hdecides =>
    cases hdecides with
    | revised _ _ hsave =>
      obtain ⟨w, -, rfl⟩ := RunM.save_run hsave
      obtain ⟨w', -, rfl⟩ := RunM.onWorkspace_run hwrite
      obtain ⟨hworks, -⟩ := hjudge.of_ok hjudged
      refine (revising_count _ _ _ _ _).trans ?_
      exact (hworks.stays.trans (SessionState.absorb_stays _ _ _)).count

/-! ## The whole loop -/

/-- The loop, entered at the run `r`, ends with `out`, after no more iterations than are left; each
of them starts where no limit is reached. -/
def LoopsWithin (c : Controller) (resume : Option Resume) (r : Run)
    (out : Except Failure Unit × Run) : Prop :=
  ∃ starts, Looping c resume starts r out ∧ starts.length ≤ c.iterationsLeft r.state ∧
    ∀ r₁ ∈ starts, Unreached c.limits r₁.workspace.now r₁.state

theorem LoopsWithin.of_stop {out : Except Failure Unit × Run}
    (h : Looping c resume [] r out) : LoopsWithin c resume r out :=
  ⟨[], h, Nat.zero_le _, List.forall_mem_nil _⟩

theorem LoopsWithin.of_one {out : Except Failure Unit × Run} (h : Looping c resume [r] r out)
    (hunreached : Unreached c.limits r.workspace.now r.state) : LoopsWithin c resume r out :=
  ⟨[r], h, iterationsLeft_pos hunreached, List.forall_mem_singleton.2 hunreached⟩

theorem LoopsWithin.again {r₁ : Run} {out : Except Failure Unit × Run}
    (h : LoopsWithin c resume r₁ out) (hstop : stopAtLimit c r = (.ok false, r))
    (hunreached : Unreached c.limits r.workspace.now r.state)
    (hiteration : iteration c resume r = (.ok .again, r₁))
    (hfewer : c.iterationsLeft r₁.state + 1 = c.iterationsLeft r.state) :
    LoopsWithin c resume r out := by
  obtain ⟨starts, hlooping, hlength, hall⟩ := h
  refine ⟨r :: starts, .again hstop hiteration hlooping, ?_,
    List.forall_mem_cons.2 ⟨hunreached, hall⟩⟩
  rw [List.length_cons]
  omega

/-- With as many rounds as there are iterations left, or more, the loop runs to its end. -/
theorem rounds_loopsWithin (left : Nat) (hleft : c.iterationsLeft r.state ≤ left) :
    LoopsWithin c resume r (rounds c resume left r) := by
  induction left generalizing r with
  | zero =>
    refine @Ends.result _ _ r (rounds c resume 0) (LoopsWithin c resume r) ?_
    refine ends_rounds_zero.2 (((Ends.self _ _).and (stopAtLimit_unreached c r)).mono ?_ ?_)
    · rintro stopped r₁ ⟨hstop, hunreached⟩
      cases stopped with
      | true => exact .of_stop (.stopped hstop)
      | false =>
        have hpos := iterationsLeft_pos (hunreached rfl).2
        omega
    · rintro f r₁ ⟨hstop, -⟩
      exact .of_stop (.indescribable hstop)
  | succ left ih =>
    refine @Ends.result _ _ r (rounds c resume (left + 1)) (LoopsWithin c resume r) ?_
    refine ends_rounds_succ.2 (((Ends.self _ _).and (stopAtLimit_unreached c r)).mono ?_ ?_)
    · rintro stopped r₁ ⟨hstop, hunreached⟩
      cases stopped with
      | true => exact .of_stop (.stopped hstop)
      | false =>
        obtain ⟨rfl, hunreached⟩ := hunreached rfl
        rw [if_neg Bool.false_ne_true]
        refine (Ends.self (iteration c resume) r₁).mono (fun next r₂ hiteration => ?_)
          fun f r₂ hiteration => .of_one (.failed hstop hiteration) hunreached
        cases next with
        | finished => exact .of_one (.finished hstop hiteration) hunreached
        | again =>
          obtain ⟨hmoved, hbase⟩ := Prod.mk.inj (iteration_again hiteration)
          have hpos := iterationsLeft_pos hunreached
          have hfewer : c.iterationsLeft r₂.state + 1 = c.iterationsLeft r₁.state := by
            unfold Controller.iterationsLeft at hpos ⊢
            omega
          have hwhole := (@ih r₂ (by omega)).again hstop hunreached hiteration hfewer
          exact (Ends.self (rounds c resume left) r₂).mono (fun _ _ heq => heq ▸ hwhole)
            fun _ _ heq => heq ▸ hwhole
    · rintro f r₁ ⟨hstop, -⟩
      exact .of_stop (.indescribable hstop)

/-- The loop ends, after no more iterations than are left when it is entered, and starts each of
them where no limit is reached. -/
theorem rounds_within_limits (c : Controller) (resume : Option Resume) (r : Run) :
    ∃ starts, Looping c resume starts r (rounds c resume (c.iterationsLeft r.state) r) ∧
      (starts.length : Int) ≤
        max 0 (c.limits.maxIterations + r.state.turnBase - r.state.iteration) ∧
      ∀ r₁ ∈ starts, Unreached c.limits r₁.workspace.now r₁.state := by
  obtain ⟨starts, hlooping, hlength, hunreached⟩ :=
    @rounds_loopsWithin c resume r (c.iterationsLeft r.state) le_rfl
  refine ⟨starts, hlooping, ?_, hunreached⟩
  unfold Controller.iterationsLeft at hlength
  omega

end PlanReview
