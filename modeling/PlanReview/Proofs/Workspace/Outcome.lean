import PlanReview.Loop.Basic

/-!
# How an operation ends

`Ends m s ok bad` says how the operation `m` ends when it begins in the state `s` : either it
answers, and `ok` holds of the answer and the state after it, or it fails, and `bad` holds of the
failure and the state after it. What an operation has changed before it fails stays changed, so
both sides speak of a state.

An operation is opened from the outside in (`ends_bind` and the other equivalences), and where it
calls another one its outcome is cited and carried on (`Ends.mono`, `Ends.bind`). A result without
a state is opened likewise (`bind_eq_ok_iff`).
-/

namespace PlanReview

/-- Two steps in a row have a value exactly if the first has one and the second has one for it. -/
theorem bind_eq_ok_iff {ε α β : Type} {x : Except ε α} {f : α → Except ε β} {b : β} :
    (x >>= f) = .ok b ↔ ∃ a, x = .ok a ∧ f a = .ok b := by
  cases x with
  | error e => exact ⟨nofun, nofun⟩
  | ok a => exact ⟨fun h => ⟨a, rfl, h⟩, by rintro ⟨_, ⟨⟩, h⟩; exact h⟩

theorem exists_of_isOk {ε α : Type} {x : Except ε α} (h : x.isOk = true) : ∃ a, x = .ok a := by
  cases x with
  | error e => cases h
  | ok a => exact ⟨a, rfl⟩

variable {σ α β : Type} {s : σ} {ok ok' : α → σ → Prop} {bad bad' : Failure → σ → Prop}

/-- The outcome of an operation that begins in the state `s`. -/
def Ends (m : ExceptT Failure (StateM σ) α) (s : σ) (ok : α → σ → Prop)
    (bad : Failure → σ → Prop) : Prop :=
  match m s with
  | (.ok a, t) => ok a t
  | (.error e, t) => bad e t

namespace Ends

theorem mono {m : ExceptT Failure (StateM σ) α} (h : Ends m s ok bad)
    (hok : ∀ a t, ok a t → ok' a t) (hbad : ∀ e t, bad e t → bad' e t) : Ends m s ok' bad' := by
  unfold Ends at h ⊢
  split at h
  · exact hok _ _ h
  · exact hbad _ _ h

protected theorem trivial (m : ExceptT Failure (StateM σ) α) :
    Ends m s (fun _ _ => True) fun _ _ => True := by
  unfold Ends
  split <;> exact True.intro

theorem of_ok {m : ExceptT Failure (StateM σ) α} (h : Ends m s ok bad) {a : α} {t : σ}
    (hm : m s = (.ok a, t)) : ok a t := by
  unfold Ends at h
  rwa [hm] at h

theorem of_error {m : ExceptT Failure (StateM σ) α} (h : Ends m s ok bad) {e : Failure} {t : σ}
    (hm : m s = (.error e, t)) : bad e t := by
  unfold Ends at h
  rwa [hm] at h

/-- An operation that cannot but answer in one way. -/
theorem eq {m : ExceptT Failure (StateM σ) α} {a : α} {t : σ}
    (h : Ends m s (fun b u => b = a ∧ u = t) fun _ _ => False) : m s = (.ok a, t) := by
  unfold Ends at h
  split at h
  · rename_i b u heq
    rw [heq, h.1, h.2]
  · exact h.elim

/-- An operation that cannot but fail in one way. -/
theorem eq_error {m : ExceptT Failure (StateM σ) α} {e : Failure} {t : σ}
    (h : Ends m s (fun _ _ => False) fun f u => f = e ∧ u = t) : m s = (.error e, t) := by
  unfold Ends at h
  split at h
  · exact h.elim
  · rename_i f u heq
    rw [heq, h.1, h.2]

/-- An operation ends the way it does. -/
protected theorem self (m : ExceptT Failure (StateM σ) α) (s : σ) :
    Ends m s (fun a t => m s = (.ok a, t)) fun e t => m s = (.error e, t) := by
  unfold Ends
  split
  · assumption
  · assumption

/-- What holds of every way in which an operation ends, holds of the way in which it does. -/
theorem result {m : ExceptT Failure (StateM σ) α} {P : Except Failure α × σ → Prop}
    (h : Ends m s (fun a t => P (.ok a, t)) fun e t => P (.error e, t)) : P (m s) := by
  unfold Ends at h
  split at h
  · rename_i hm
    rwa [hm]
  · rename_i hm
    rwa [hm]

/-- What holds however an operation ends, holds of the state after it. -/
theorem state {m : ExceptT Failure (StateM σ) α} {P : σ → Prop}
    (h : Ends m s (fun _ => P) fun _ => P) : P (m s).2 := by
  unfold Ends at h
  split at h
  · rename_i hm
    rwa [hm]
  · rename_i hm
    rwa [hm]

theorem forall_of {ι : Type} {m : ExceptT Failure (StateM σ) α} {ok : ι → α → σ → Prop}
    {bad : ι → Failure → σ → Prop} (h : ∀ i, Ends m s (ok i) (bad i)) :
    Ends m s (fun a t => ∀ i, ok i a t) fun e t => ∀ i, bad i e t := by
  unfold Ends at h ⊢
  split
  · rename_i hm
    exact fun i => by simpa [hm] using h i
  · rename_i hm
    exact fun i => by simpa [hm] using h i

theorem and {m : ExceptT Failure (StateM σ) α} (h : Ends m s ok bad) (h' : Ends m s ok' bad') :
    Ends m s (fun a t => ok a t ∧ ok' a t) fun e t => bad e t ∧ bad' e t := by
  unfold Ends at h h' ⊢
  split
  · rename_i hm
    rw [hm] at h h'
    exact ⟨h, h'⟩
  · rename_i hm
    rw [hm] at h h'
    exact ⟨h, h'⟩

end Ends

theorem ends_of_ok {m : ExceptT Failure (StateM σ) α} {a : α} {t : σ} (hm : m s = (.ok a, t)) :
    Ends m s ok bad ↔ ok a t := by
  unfold Ends
  rw [hm]

theorem ends_of_error {m : ExceptT Failure (StateM σ) α} {e : Failure} {t : σ}
    (hm : m s = (.error e, t)) : Ends m s ok bad ↔ bad e t := by
  unfold Ends
  rw [hm]

theorem ends_congr {m : ExceptT Failure (StateM σ) α} (hok : ∀ a t, ok a t ↔ ok' a t)
    (hbad : ∀ e t, bad e t ↔ bad' e t) : Ends m s ok bad ↔ Ends m s ok' bad' :=
  ⟨fun h => h.mono (fun a t => (hok a t).1) fun e t => (hbad e t).1,
    fun h => h.mono (fun a t => (hok a t).2) fun e t => (hbad e t).2⟩

/-! ## The parts of operations -/

@[simp] theorem ends_pure (a : α) : Ends (pure a) s ok bad ↔ ok a s := Iff.rfl

@[simp] theorem ends_throw (e : Failure) :
    Ends (throw e : ExceptT Failure (StateM σ) α) s ok bad ↔ bad e s := Iff.rfl

theorem bind_apply (m : ExceptT Failure (StateM σ) α) (f : α → ExceptT Failure (StateM σ) β)
    (s : σ) : (m >>= f) s = match m s with
      | (.ok a, t) => f a t
      | (.error e, t) => (.error e, t) := by
  change (ExceptT.bindCont f (m s).1) (m s).2 = _
  rcases m s with ⟨_ | _, _⟩ <;> rfl

theorem ends_bind {m : ExceptT Failure (StateM σ) α} {f : α → ExceptT Failure (StateM σ) β}
    {ok : β → σ → Prop} :
    Ends (m >>= f) s ok bad ↔ Ends m s (fun a t => Ends (f a) t ok bad) bad := by
  unfold Ends
  rw [bind_apply]
  rcases m s with ⟨_ | _, _⟩ <;> rfl

theorem Ends.bind {m : ExceptT Failure (StateM σ) α} {f : α → ExceptT Failure (StateM σ) β}
    {ok' : β → σ → Prop} (h : Ends m s ok bad) (hf : ∀ a t, ok a t → Ends (f a) t ok' bad')
    (hbad : ∀ e t, bad e t → bad' e t) : Ends (m >>= f) s ok' bad' :=
  ends_bind.2 (h.mono hf hbad)

theorem ends_get {ok : σ → σ → Prop} :
    Ends (get : ExceptT Failure (StateM σ) σ) s ok bad ↔ ok s s := Iff.rfl

theorem ends_set {ok : PUnit → σ → Prop} (t : σ) :
    Ends (set t : ExceptT Failure (StateM σ) PUnit) s ok bad ↔ ok ⟨⟩ t := Iff.rfl

theorem ends_modify {ok : PUnit → σ → Prop} (f : σ → σ) :
    Ends (modify f : ExceptT Failure (StateM σ) PUnit) s ok bad ↔ ok ⟨⟩ (f s) := Iff.rfl

theorem ends_ofExcept {r : Except Failure α} :
    Ends (ofExcept r : ExceptT Failure (StateM σ) α) s ok bad ↔
      match r with
      | .ok a => ok a s
      | .error e => bad e s := by
  cases r <;> rfl

/-- An attempt answers with the failure, where there is one. -/
theorem RunM.ends_attempt {r : Run} {m : RunM α} {ok : Except Failure α → Run → Prop}
    {bad : Failure → Run → Prop} :
    Ends (RunM.attempt m) r ok bad ↔
      Ends m r (fun a t => ok (.ok a) t) fun e t => ok (.error e) t := by
  have hrun : RunM.attempt m r = (.ok (m r).1, (m r).2) := rfl
  unfold Ends
  rw [hrun]
  rcases m r with ⟨_ | _, _⟩ <;> rfl

theorem RunM.ends_onWorkspace {r : Run} {m : Act α} {ok : α → Run → Prop}
    {bad : Failure → Run → Prop} :
    Ends (RunM.onWorkspace m) r ok bad ↔
      Ends m r.workspace (fun a w => ok a { r with workspace := w })
        fun e w => bad e { r with workspace := w } := by
  unfold Ends RunM.onWorkspace
  rcases m r.workspace with ⟨_ | _, _⟩ <;> rfl

end PlanReview
