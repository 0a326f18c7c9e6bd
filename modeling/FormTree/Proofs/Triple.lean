import FormTree.Source.Progress

/-!
# Triples

A **triple** says what a function does from the states that satisfy its precondition: where it
succeeds, its value and the state it leaves satisfy the postcondition. A total one says also that it
succeeds. Whether a triple is total is an argument, so that one proof serves for texts that read
back and for those that must not. Where a run fails, `Fails` says with which error.
-/

namespace FormTree

variable {ε σ α β : Type} {total : Bool} {P : σ → Prop} {Q : α → σ → Prop}

/-- What is done with the value of a run does not change how it fails. -/
theorem map_eq_error {f : α → β} {m : EStateM ε σ α} {s t : σ} {e : ε} :
    (f <$> m) s = .error e t ↔ m s = .error e t := by
  rw [map_apply]
  cases m s <;> simp

/-- What the result of a run is; if `total`, the run succeeded. -/
def Post (total : Bool) (Q : α → σ → Prop) : EStateM.Result ε σ α → Prop
  | .ok a t => Q a t
  | .error _ _ => total = false

/-- What `m` does from the states in `P`; if `total`, it succeeds from all of them. -/
def Triple (total : Bool) (P : σ → Prop) (m : EStateM ε σ α) (Q : α → σ → Prop) : Prop :=
  ∀ s, P s → Post total Q (m s)

namespace Triple

/-- A triple holds if every run succeeds as it should, whether it has to be total or not. -/
theorem of_ok {m : EStateM ε σ α} (h : ∀ s, P s → ∃ a t, m s = .ok a t ∧ Q a t) :
    Triple total P m Q := by
  intro s hs
  obtain ⟨a, t, hm, hq⟩ := h s hs
  rw [hm]
  exact hq

/-- What a total triple says of one run. -/
theorem exists_ok {m : EStateM ε σ α} (h : Triple true P m Q) {s : σ} (hs : P s) :
    ∃ a t, m s = .ok a t ∧ Q a t := by
  have h := h s hs
  rcases hm : m s with ⟨a, t⟩ | ⟨e, t⟩
  · rw [hm] at h
    exact ⟨a, t, rfl, h⟩
  · rw [hm] at h
    cases h

/-- What any triple says of a run that succeeds. -/
theorem of_eq_ok {m : EStateM ε σ α} (h : Triple total P m Q) {s t : σ} {a : α} (hs : P s)
    (hm : m s = .ok a t) : Q a t := by
  have h := h s hs
  rwa [hm] at h

/-- What holds in total holds. -/
theorem loosen {m : EStateM ε σ α} (h : Triple true P m Q) : Triple total P m Q :=
  of_ok fun _ hs => h.exists_ok hs

/-- Consequence: a triple stays true for less that is assumed and less that is claimed. -/
theorem mono {m : EStateM ε σ α} {P' : σ → Prop} {Q' : α → σ → Prop} (h : Triple total P m Q)
    (hP : ∀ s, P' s → P s) (hQ : ∀ a t, Q a t → Q' a t) : Triple total P' m Q' := by
  intro s hs
  have h := h s (hP s hs)
  rcases hm : m s with ⟨a, t⟩ | ⟨e, t⟩
  · rw [hm] at h
    exact hQ a t h
  · rwa [hm] at h

theorem pre {m : EStateM ε σ α} {P' : σ → Prop} (h : Triple total P m Q) (hP : ∀ s, P' s → P s) :
    Triple total P' m Q :=
  h.mono hP fun _ _ h => h

/-- A triple that is not total may promise nothing. -/
theorem trivial (m : EStateM ε σ α) (hQ : ∀ a t, Q a t) : Triple false P m Q := by
  intro s _
  rcases hm : m s with ⟨a, t⟩ | ⟨e, t⟩
  · exact hQ a t
  · rfl

theorem pure {a : α} (h : ∀ s, P s → Q a s) : Triple total P (Pure.pure a : EStateM ε σ α) Q := h

theorem throw {e : ε} : Triple false P (MonadExcept.throw e : EStateM ε σ α) Q := fun _ _ => rfl

/-- Composition: the first postcondition is the precondition of what follows, for every value. -/
theorem bind {R : β → σ → Prop} {m : EStateM ε σ α} {f : α → EStateM ε σ β}
    (hm : Triple total P m Q) (hf : ∀ a, Triple total (Q a) (f a) R) :
    Triple total P (m >>= f) R := by
  intro s hs
  have hm := hm s hs
  rw [bind_apply]
  rcases hms : m s with ⟨a, t⟩ | ⟨e, t⟩
  · rw [hms] at hm
    exact hf a t hm
  · rw [hms] at hm
    exact hm

/-- A function applied to the value is seen in the postcondition only. -/
theorem map {R : β → σ → Prop} {m : EStateM ε σ α} {f : α → β} (hm : Triple total P m Q)
    (hf : ∀ a t, Q a t → R (f a) t) : Triple total P (f <$> m) R :=
  bind hm fun a => pure (hf a)

theorem ite_true {c : Prop} [Decidable c] {m n : EStateM ε σ α} (hc : c)
    (hm : Triple total P m Q) : Triple total P (if c then m else n) Q := by
  rwa [if_pos hc]

theorem ite_false {c : Prop} [Decidable c] {m n : EStateM ε σ α} (hc : ¬ c)
    (hn : Triple total P n Q) : Triple total P (if c then m else n) Q := by
  rwa [if_neg hc]

theorem ite {c : Prop} [Decidable c] {m n : EStateM ε σ α} (hm : Triple total P m Q)
    (hn : Triple total P n Q) : Triple total P (if c then m else n) Q := by
  split
  · exact hm
  · exact hn

/-- Where the first part can give one value only, the second part goes on with it. -/
theorem bind_eq {R : β → σ → Prop} {P' : σ → Prop} {m : EStateM ε σ α} {f : α → EStateM ε σ β}
    {a : α} (hm : Triple total P m fun b s => b = a ∧ P' s) (hf : Triple total P' (f a) R) :
    Triple total P (m >>= f) R := by
  refine hm.bind fun b s hs => ?_
  obtain ⟨rfl, hs⟩ := hs
  exact hf s hs

/-- Where nothing has to be known of the first part the second part decides. -/
theorem bind_any {R : β → σ → Prop} {m : EStateM ε σ α} {f : α → EStateM ε σ β}
    (hf : ∀ a, Triple false (fun _ => True) (f a) R) : Triple false P (m >>= f) R :=
  (trivial m (Q := fun _ _ => True) fun _ _ => True.intro).bind hf

/-- A precondition that states a fact gives that fact. -/
theorem of_and {p : Prop} {m : EStateM ε σ α} (h : p → Triple total P m Q) :
    Triple total (fun s => p ∧ P s) m Q :=
  fun s hs => h hs.1 s hs.2

/-- What names a part of the state may be fixed before the run. -/
theorem of_exists {ι : Type} {P : ι → σ → Prop} {m : EStateM ε σ α}
    (h : ∀ i, Triple total (P i) m Q) : Triple total (fun s => ∃ i, P i s) m Q :=
  fun s ⟨i, hs⟩ => h i s hs

end Triple

/-! ### Verdicts -/

/-- What is known of a value depends on whether all is well. -/
def Verdict (well : Bool) (good : α → σ → Prop) (bad : α → Prop) (a : α) (s : σ) : Prop :=
  if well then good a s else bad a

/-- A verdict on a state carries over to another one for what is good there. -/
theorem Verdict.imp {good good' : α → σ → Prop} {bad : α → Prop} {well : Bool} {a : α} {s t : σ}
    (h : Verdict well good bad a s) (hgood : good a s → good' a t) :
    Verdict well good' bad a t := by
  rcases well with - | -
  · exact h
  · exact hgood h

namespace Triple

variable {good : α → σ → Prop} {bad : α → Prop} {good' : β → σ → Prop} {bad' : β → Prop}
  {m : EStateM ε σ α} {f : α → EStateM ε σ β} {v w : Bool}

/-- All is well after two parts if it is after both. -/
theorem verdict (hm : Triple w P m (Verdict w good bad))
    (hgood : w = true → ∀ a, Triple v (good a) (f a) (Verdict v good' bad'))
    (hbad : ∀ a, bad a → Triple false (fun _ => True) (f a) fun b _ => bad' b) :
    Triple (w && v) P (m >>= f) (Verdict (w && v) good' bad') := by
  rcases w with - | -
  · refine hm.bind fun a s ha => ?_
    exact hbad a ha s True.intro
  · exact hm.loosen.bind fun a s ha => hgood rfl a s ha

/-- A part that cannot fail leaves it at the verdict. -/
theorem verdict_bind (hm : Triple w P m (Verdict w good bad))
    (hgood : w = true → ∀ a, Triple true (good a) (f a) good')
    (hbad : ∀ a, bad a → Triple false (fun _ => True) (f a) fun b _ => bad' b) :
    Triple w P (m >>= f) (Verdict w good' bad') := by
  rcases w with - | -
  · refine hm.bind fun a s ha => ?_
    exact hbad a ha s True.intro
  · exact hm.bind fun a s ha => hgood rfl a s ha

/-- A verdict goes through a function that preserves both of its sides. -/
theorem verdict_map {g : α → β} (hm : Triple w P m (Verdict w good bad))
    (hgood : ∀ a s, good a s → good' (g a) s) (hbad : ∀ a, bad a → bad' (g a)) :
    Triple w P (g <$> m) (Verdict w good' bad') := by
  rcases w with - | -
  · exact hm.map fun a _ ha => hbad a ha
  · exact hm.map fun a s ha => hgood a s ha

end Triple

/-! ### Failing runs -/

/-- Whether `m` fails with `e` from the states in `P`. -/
def Fails (e : ε) (P : σ → Prop) (m : EStateM ε σ α) : Prop :=
  ∀ s, P s → ∃ t, m s = .error e t

namespace Fails

variable {e : ε} {P' : σ → Prop} {m n : EStateM ε σ α} {f : α → EStateM ε σ β}

theorem throw : Fails e P (MonadExcept.throw e : EStateM ε σ α) := fun s _ => ⟨s, rfl⟩

theorem pre (h : Fails e P m) (hP : ∀ s, P' s → P s) : Fails e P' m := fun s hs => h s (hP s hs)

theorem bind (h : Fails e P m) : Fails e P (m >>= f) := by
  intro s hs
  obtain ⟨t, ht⟩ := h s hs
  exact ⟨t, by rw [bind_apply, ht]⟩

theorem map (h : Fails e P m) (g : α → β) : Fails e P (g <$> m) := bind h

/-- Where the first part succeeds with a value, the second part fails for it. -/
theorem bind_eq {a : α} (hm : Triple true P m fun b s => b = a ∧ P' s) (hf : Fails e P' (f a)) :
    Fails e P (m >>= f) := by
  intro s hs
  obtain ⟨_, t, ht, rfl, hP'⟩ := hm.exists_ok hs
  obtain ⟨u, hu⟩ := hf t hP'
  exact ⟨u, by rw [bind_apply, ht]; exact hu⟩

theorem ite_true {c : Prop} [Decidable c] (hc : c) (h : Fails e P m) :
    Fails e P (if c then m else n) := by
  rwa [if_pos hc]

theorem ite_false {c : Prop} [Decidable c] (hc : ¬ c) (h : Fails e P n) :
    Fails e P (if c then m else n) := by
  rwa [if_neg hc]

end Fails

end FormTree
