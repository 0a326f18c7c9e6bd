import FormTree.Proofs.Triple

/-!
# Two runs

Two runs from states that correspond are compared by their results: both succeed with values that
correspond or both fail with errors that do, and the states that they leave correspond again. The
first run may also be **excused**: where it fails with one of certain errors, nothing is said of the
second one. Composed functions **accord** if their parts do, which is all that most functions of the
reader need.
-/

namespace FormTree

variable {ε σ α β γ δ : Type}

/-- Whether two runs end in the same way: with values in `R` or errors in `E`, and states in `S`. -/
inductive Related (E : ε → ε → Prop) (S : σ → σ → Prop) (R : α → β → Prop) :
    EStateM.Result ε σ α → EStateM.Result ε σ β → Prop
  | ok {a : α} {b : β} {s t : σ} (hvalue : R a b) (hstate : S s t) :
    Related E S R (.ok a s) (.ok b t)
  | error {e f : ε} {s t : σ} (herror : E e f) (hstate : S s t) :
    Related E S R (.error e s) (.error f t)

/-- Whether two pure results are the same in kind: values in `R`, or errors in `E`. -/
inductive ExceptRel (E : ε → ε → Prop) (R : α → β → Prop) : Except ε α → Except ε β → Prop
  | ok {a : α} {b : β} (h : R a b) : ExceptRel E R (.ok a) (.ok b)
  | error {e f : ε} (h : E e f) : ExceptRel E R (.error e) (.error f)

/-- Whether two functions, run from states in `P`, end in the same way. -/
def Respects (P : σ → σ → Prop) (E : ε → ε → Prop) (S : σ → σ → Prop) (R : α → β → Prop)
    (m : EStateM ε σ α) (n : EStateM ε σ β) : Prop :=
  ∀ s t, P s t → Related E S R (m s) (n t)

/-- Whether two runs end in the same way, or the first one fails with an error in `X`. -/
inductive Accords (X : ε → Prop) (E : ε → ε → Prop) (S : σ → σ → Prop) (R : α → β → Prop) :
    EStateM.Result ε σ α → EStateM.Result ε σ β → Prop
  | ok {a : α} {b : β} {s t : σ} (hvalue : R a b) (hstate : S s t) :
    Accords X E S R (.ok a s) (.ok b t)
  | error {e f : ε} {s t : σ} (herror : E e f) (hstate : S s t) :
    Accords X E S R (.error e s) (.error f t)
  | excused {e : ε} {s : σ} {r : EStateM.Result ε σ β} (h : X e) : Accords X E S R (.error e s) r

/-- Whether two functions, run from states in `P`, end in the same way or with an excuse. -/
def InAccord (X : ε → Prop) (P : σ → σ → Prop) (E : ε → ε → Prop) (S : σ → σ → Prop)
    (R : α → β → Prop) (m : EStateM ε σ α) (n : EStateM ε σ β) : Prop :=
  ∀ s t, P s t → Accords X E S R (m s) (n t)

namespace Related

variable {E : ε → ε → Prop} {S : σ → σ → Prop} {R : α → β → Prop} {u : EStateM.Result ε σ β}

/-- If one run succeeds, so does the other. -/
theorem exists_of_ok {a : α} {s : σ} (h : Related E S R (.ok a s) u) :
    ∃ b t, u = .ok b t ∧ R a b ∧ S s t := by
  cases h with
  | ok hvalue hstate => exact ⟨_, _, rfl, hvalue, hstate⟩

end Related

namespace Accords

variable {X : ε → Prop} {E : ε → ε → Prop} {S : σ → σ → Prop} {R : α → β → Prop}
  {Q : γ → δ → Prop} {r : EStateM.Result ε σ α} {u : EStateM.Result ε σ β}

/-- If the first run succeeds, so does the second one. -/
theorem exists_of_ok {a : α} {s : σ} (h : Accords X E S R (.ok a s) u) :
    ∃ b t, u = .ok b t ∧ R a b ∧ S s t := by
  cases h with
  | ok hvalue hstate => exact ⟨_, _, rfl, hvalue, hstate⟩

/-- Without excuses runs that accord end in the same way. -/
theorem related (h : Accords X E S R r u) (hX : ∀ e, ¬ X e) : Related E S R r u := by
  cases h with
  | ok hvalue hstate => exact .ok hvalue hstate
  | error herror hstate => exact .error herror hstate
  | excused h => exact absurd h (hX _)

/-- Only the relation of the values is weakened; errors and states are compared as before. -/
theorem imp {R' : α → β → Prop} (h : Accords X E S R r u) (hR : ∀ a b, R a b → R' a b) :
    Accords X E S R' r u := by
  cases h with
  | ok hvalue hstate => exact .ok (hR _ _ hvalue) hstate
  | error herror hstate => exact .error herror hstate
  | excused h => exact .excused h

/-- What two runs go on with is compared where both have succeeded. -/
theorem bind {m : EStateM ε σ α} {n : EStateM ε σ β} {f : α → EStateM ε σ γ}
    {g : β → EStateM ε σ δ} {s t : σ} (h : Accords X E S R (m s) (n t))
    (hfg : ∀ a b s' t', m s = .ok a s' → n t = .ok b t' → R a b → S s' t' →
      Accords X E S Q (f a s') (g b t')) : Accords X E S Q ((m >>= f) s) ((n >>= g) t) := by
  rw [bind_apply, bind_apply]
  generalize m s = r at h hfg
  generalize n t = u at h hfg
  cases h with
  | ok hvalue hstate => exact hfg _ _ _ _ rfl rfl hvalue hstate
  | error herror hstate => exact .error herror hstate
  | excused h => exact .excused h

/-- Values that are related stay so under functions that preserve it. -/
theorem map {m : EStateM ε σ α} {n : EStateM ε σ β} {f : α → γ} {g : β → δ} {s t : σ}
    (h : Accords X E S R (m s) (n t)) (hfg : ∀ a b, R a b → Q (f a) (g b)) :
    Accords X E S Q ((f <$> m) s) ((g <$> n) t) := by
  rw [map_apply, map_apply]
  generalize m s = r at h
  generalize n t = u at h
  cases h with
  | ok hvalue hstate => exact .ok (hfg _ _ hvalue) hstate
  | error herror hstate => exact .error herror hstate
  | excused h => exact .excused h

end Accords

/-! ### Rules -/

namespace InAccord

variable {X : ε → Prop} {P : σ → σ → Prop} {E : ε → ε → Prop} {S : σ → σ → Prop}

/-- Values that are related are given by runs in accord. -/
theorem pure {R : α → β → Prop} {a : α} {b : β} (h : R a b) :
    InAccord X S E S R (Pure.pure a) (Pure.pure b) :=
  fun _ _ hst => .ok h hst

/-- Errors that correspond are thrown in accord. -/
theorem throw {R : α → β → Prop} {e f : ε} (h : E e f) :
    InAccord X S E S R (MonadExcept.throw e) (MonadExcept.throw f) :=
  fun _ _ hst => .error h hst

/-- A run that throws an excused error is in accord with any other. -/
theorem excused {R : α → β → Prop} {e : ε} {n : EStateM ε σ β} (h : X e) :
    InAccord X P E S R (MonadExcept.throw e) n :=
  fun _ _ _ => .excused h

theorem bind {R : α → β → Prop} {Q : γ → δ → Prop} {m : EStateM ε σ α} {n : EStateM ε σ β}
    {f : α → EStateM ε σ γ} {g : β → EStateM ε σ δ} (hmn : InAccord X P E S R m n)
    (hfg : ∀ a b, R a b → InAccord X S E S Q (f a) (g b)) :
    InAccord X P E S Q (m >>= f) (n >>= g) :=
  fun s t hst => (hmn s t hst).bind fun a b _ _ _ _ hab hst' => hfg a b hab _ _ hst'

/-- After the same value it is enough to compare what is done with each value. -/
theorem bind_eq {Q : γ → δ → Prop} {m n : EStateM ε σ α} {f : α → EStateM ε σ γ}
    {g : α → EStateM ε σ δ} (hmn : InAccord X P E S Eq m n)
    (hfg : ∀ a, InAccord X S E S Q (f a) (g a)) : InAccord X P E S Q (m >>= f) (n >>= g) :=
  bind hmn fun a _ h => h ▸ hfg a

theorem map {R : α → β → Prop} {Q : γ → δ → Prop} {m : EStateM ε σ α} {n : EStateM ε σ β}
    {f : α → γ} {g : β → δ} (hmn : InAccord X P E S R m n) (hfg : ∀ a b, R a b → Q (f a) (g b)) :
    InAccord X P E S Q (f <$> m) (g <$> n) :=
  fun s t hst => (hmn s t hst).map hfg

/-- Each branch may use that it was taken. -/
theorem ite_of {R : α → β → Prop} {c d : Prop} [Decidable c] [Decidable d]
    {m m' : EStateM ε σ α} {n n' : EStateM ε σ β} (hcd : c ↔ d)
    (hm : c → InAccord X P E S R m n) (hm' : ¬ c → InAccord X P E S R m' n') :
    InAccord X P E S R (if c then m else m') (if d then n else n') := by
  by_cases hc : c
  · rw [if_pos hc, if_pos (hcd.1 hc)]
    exact hm hc
  · rw [if_neg hc, if_neg (mt hcd.2 hc)]
    exact hm' hc

/-- A test that has the same outcome on both sides may be left to the branches. -/
theorem ite {R : α → β → Prop} {c d : Prop} [Decidable c] [Decidable d]
    {m m' : EStateM ε σ α} {n n' : EStateM ε σ β} (hcd : c ↔ d)
    (hm : InAccord X P E S R m n) (hm' : InAccord X P E S R m' n') :
    InAccord X P E S R (if c then m else m') (if d then n else n') :=
  ite_of hcd (fun _ => hm) fun _ => hm'

/-- The states to begin with may be fewer. -/
theorem restrict {P' : σ → σ → Prop} {R : α → β → Prop} {m : EStateM ε σ α} {n : EStateM ε σ β}
    (hmn : InAccord X P E S R m n) (hP : ∀ s t, P' s t → P s t) : InAccord X P' E S R m n :=
  fun s t hst => hmn s t (hP s t hst)

theorem ofExcept {R : α → β → Prop} {x : Except ε α} {y : Except ε β} (h : ExceptRel E R x y) :
    InAccord X S E S R (MonadExcept.ofExcept x) (MonadExcept.ofExcept y) := by
  cases h with
  | ok h => exact pure h
  | error h => exact throw h

/-- Functions that accord without excuses end in the same way. -/
theorem respects {R : α → β → Prop} {m : EStateM ε σ α} {n : EStateM ε σ β}
    (h : InAccord X P E S R m n) (hX : ∀ e, ¬ X e) : Respects P E S R m n :=
  fun s t hst => (h s t hst).related hX

end InAccord

end FormTree
