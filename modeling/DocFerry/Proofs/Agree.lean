import DocFerry.Proofs.Action
/-!
# Two runs side by side

Two actions agree if from related states they lead to related states, and either both yield results that are related or
both fail (`Agrees`).  What agrees step by step agrees as a whole (`Agrees.bind`, `Agrees.tryCatch`, `Agrees.foldlM`).
The same holds of actions that agree unless one of them fails in some way (`AgreesUnless`).
-/
namespace DocFerry.Action

variable {σ ε α β : Type}

/-- **Two results that are alike**: both are there and related, or neither is. -/
inductive ResultsAlike (Q : α → α → Prop) : Except ε α → Except ε α → Prop
  | ok {a b : α} : Q a b → ResultsAlike Q (.ok a) (.ok b)
  | error {e f : ε} : ResultsAlike Q (.error e) (.error f)

theorem ResultsAlike.refl {Q : α → α → Prop} (r : Except ε α) (hq : ∀ a, Q a a) : ResultsAlike Q r r := by
  cases r with
  | ok a => exact .ok (hq a)
  | error e => exact .error

theorem ResultsAlike.bind {Q : α → α → Prop} {P : β → β → Prop} {r r' : Except ε α} {f g : α → Except ε β}
    (h : ResultsAlike Q r r') (hf : ∀ a b, Q a b → ResultsAlike P (f a) (g b)) :
    ResultsAlike P (r >>= f) (r' >>= g) := by
  cases h with
  | ok hq => exact hf _ _ hq
  | error => exact .error

/-- **Two ends of a run that are alike**: related states, and related results or related failures. -/
inductive Alike (I : σ → σ → Prop) (E : ε → ε → Prop) (Q : α → α → Prop) : Except ε α × σ → Except ε α × σ → Prop
  | ok {a b : α} {s t : σ} : I s t → Q a b → Alike I E Q (.ok a, s) (.ok b, t)
  | error {e f : ε} {s t : σ} : I s t → E e f → Alike I E Q (.error e, s) (.error f, t)

/-- **Two actions that agree**, from every two related states. -/
def Agrees (I : σ → σ → Prop) (E : ε → ε → Prop) (Q : α → α → Prop) (x y : Action σ ε α) : Prop :=
  ∀ s t, I s t → Alike I E Q (x s) (y t)

variable {I : σ → σ → Prop} {E : ε → ε → Prop} {Q : α → α → Prop} {P : β → β → Prop}

theorem Alike.isOk_eq {r r' : Except ε α × σ} (h : Alike I E Q r r') : r.1.isOk = r'.1.isOk := by
  cases h <;> rfl

theorem Alike.of_ok {a b : α} {s t : σ} (h : Alike I E Q (.ok a, s) (.ok b, t)) : I s t ∧ Q a b := by
  cases h with
  | ok hi hq => exact ⟨hi, hq⟩

theorem Alike.eq_and {r r' : Except ε α × σ} (h : Alike I Eq Eq r r') : r.1 = r'.1 ∧ I r.2 r'.2 := by
  cases h with
  | ok hi hq => exact ⟨congrArg Except.ok hq, hi⟩
  | error hi he => exact ⟨congrArg Except.error he, hi⟩

theorem Agrees.pure {a b : α} (h : Q a b) : Agrees I E Q (Pure.pure a) (Pure.pure b) := fun _ _ hi => .ok hi h

theorem Agrees.throw {e f : ε} (h : E e f) :
    Agrees I E Q (MonadExcept.throw e : Action σ ε α) (MonadExcept.throw f) := fun _ _ hi => .error hi h

/-- **Two chains agree** if their first steps do and, after results that are related, the rest does. -/
theorem Alike.bind {x y : Action σ ε α} {f g : α → Action σ ε β} {s t : σ} (hx : Alike I E Q (x s) (y t))
    (hf : ∀ a b, Q a b → Agrees I E P (f a) (g b)) : Alike I E P ((x >>= f) s) ((y >>= g) t) := by
  rw [bind_apply, bind_apply]
  generalize x s = r, y t = r' at hx
  cases hx with
  | ok hi hq => exact hf _ _ hq _ _ hi
  | error hi he => exact .error hi he

theorem Agrees.bind {x y : Action σ ε α} {f g : α → Action σ ε β} (hx : Agrees I E Q x y)
    (hf : ∀ a b, Q a b → Agrees I E P (f a) (g b)) : Agrees I E P (x >>= f) (y >>= g) := fun s t hi =>
  (hx s t hi).bind hf

theorem Agrees.tryCatch {x y : Action σ ε α} {handle handle' : ε → Action σ ε α} (hx : Agrees I E Q x y)
    (hh : ∀ e f, E e f → Agrees I E Q (handle e) (handle' f)) :
    Agrees I E Q (MonadExcept.tryCatch x handle) (MonadExcept.tryCatch y handle') := by
  intro s t hi
  have hs := hx s t hi
  rw [tryCatch_apply, tryCatch_apply]
  generalize x s = r, y t = r' at hs
  cases hs with
  | ok hi hq => exact .ok hi hq
  | error hi he => exact hh _ _ he _ _ hi

/-- **Two runs of steps agree** along lists of related entries, if each step does. -/
theorem Agrees.foldlM {γ : Type} {R : γ → γ → Prop} {f g : β → γ → Action σ ε β} {l l' : List γ}
    (hl : List.Forall₂ R l l') :
    (∀ c ∈ l, ∀ c' b b', R c c' → P b b' → Agrees I E P (f b c) (g b' c')) →
    ∀ {b b' : β}, P b b' → Agrees I E P (l.foldlM f b) (l'.foldlM g b') := by
  induction hl with
  | nil => exact fun _ _ _ => Agrees.pure
  | cons hc _ ih =>
    intro step b b' hb
    rw [List.foldlM_cons, List.foldlM_cons]
    exact (step _ List.mem_cons_self _ _ _ hc hb).bind fun _ _ =>
      ih fun c hm => step c (List.mem_cons_of_mem _ hm)

/-! ## Unless one of them fails -/

/-- **Two results that are alike**, unless one of them is a failure of some kind. -/
inductive ResultsUnless (F : ε → Prop) (Q : α → α → Prop) : Except ε α → Except ε α → Prop
  | ok {a b : α} : Q a b → ResultsUnless F Q (.ok a) (.ok b)
  | error {e : ε} : ResultsUnless F Q (.error e) (.error e)
  | left {e : ε} {r : Except ε α} : F e → ResultsUnless F Q (.error e) r
  | right {e : ε} {r : Except ε α} : F e → ResultsUnless F Q r (.error e)

/-- **Two ends of a run that are alike**, with the same failure if both fail, unless one fails in some way. -/
inductive AlikeUnless (F : ε → Prop) (I : σ → σ → Prop) (Q : α → α → Prop) : Except ε α × σ → Except ε α × σ → Prop
  | alike {r r' : Except ε α × σ} : Alike I Eq Q r r' → AlikeUnless F I Q r r'
  | left {e : ε} {s : σ} {r : Except ε α × σ} : F e → AlikeUnless F I Q (.error e, s) r
  | right {e : ε} {s : σ} {r : Except ε α × σ} : F e → AlikeUnless F I Q r (.error e, s)

/-- **Two actions that agree** from every two related states, unless one fails in some way. -/
def AgreesUnless (F : ε → Prop) (I : σ → σ → Prop) (Q : α → α → Prop) (x y : Action σ ε α) : Prop :=
  ∀ s t, I s t → AlikeUnless F I Q (x s) (y t)

section Unless

variable {F : ε → Prop} {r r' : Except ε α} {x y : Action σ ε α} {f g : α → Action σ ε β}

theorem ResultsUnless.refl (r : Except ε α) (hq : ∀ a, Q a a) : ResultsUnless F Q r r := by
  cases r with
  | ok a => exact .ok (hq a)
  | error e => exact .error

theorem ResultsUnless.bind {f g : α → Except ε β} (h : ResultsUnless F Q r r')
    (hf : ∀ a b, Q a b → ResultsUnless F P (f a) (g b)) : ResultsUnless F P (r >>= f) (r' >>= g) := by
  cases h with
  | ok hq => exact hf _ _ hq
  | error => exact .error
  | left he => exact .left he
  | right he => exact .right he

theorem ResultsUnless.imp {Q' : α → α → Prop} (h : ResultsUnless F Q r r') (hq : ∀ a b, Q a b → Q' a b) :
    ResultsUnless F Q' r r' := by
  cases h with
  | ok h => exact .ok (hq _ _ h)
  | error => exact .error
  | left he => exact .left he
  | right he => exact .right he

theorem ResultsUnless.map {f g : α → β} (h : ResultsUnless F Q r r') (hf : ∀ a b, Q a b → P (f a) (g b)) :
    ResultsUnless F P (r.map f) (r'.map g) := by
  cases h with
  | ok hq => exact .ok (hf _ _ hq)
  | error => exact .error
  | left he => exact .left he
  | right he => exact .right he

/-- **Two chains are alike** if their first steps are and the rest is, in a relation that may be weaker. -/
theorem AlikeUnless.bind {J : σ → σ → Prop} {s t : σ} (hx : AlikeUnless F I Q (x s) (y t))
    (hJ : ∀ s t, I s t → J s t) (hf : ∀ a b s t, Q a b → I s t → AlikeUnless F J P (f a s) (g b t)) :
    AlikeUnless F J P ((x >>= f) s) ((y >>= g) t) := by
  rw [bind_apply, bind_apply]
  generalize x s = r, y t = r' at hx
  cases hx with
  | alike h =>
    cases h with
    | ok hi hq => exact hf _ _ _ _ hq hi
    | error hi he => exact .alike (.error (hJ _ _ hi) he)
  | left he => exact .left he
  | right he => exact .right he

theorem AgreesUnless.pure {a b : α} (h : Q a b) : AgreesUnless F I Q (Pure.pure a) (Pure.pure b) :=
  fun _ _ hi => .alike (.ok hi h)

theorem AgreesUnless.bind (hx : AgreesUnless F I Q x y) (hf : ∀ a b, Q a b → AgreesUnless F I P (f a) (g b)) :
    AgreesUnless F I P (x >>= f) (y >>= g) := fun s t hi =>
  (hx s t hi).bind (fun _ _ => id) fun a b u v hq => hf a b hq u v

theorem AgreesUnless.foldlM {γ : Type} {R : γ → γ → Prop} {f g : β → γ → Action σ ε β} {l l' : List γ}
    (hl : List.Forall₂ R l l') :
    (∀ c ∈ l, ∀ c' b b', R c c' → P b b' → AgreesUnless F I P (f b c) (g b' c')) →
    ∀ {b b' : β}, P b b' → AgreesUnless F I P (l.foldlM f b) (l'.foldlM g b') := by
  induction hl with
  | nil => exact fun _ _ _ => AgreesUnless.pure
  | cons hc _ ih =>
    intro step b b' hb
    rw [List.foldlM_cons, List.foldlM_cons]
    exact (step _ List.mem_cons_self _ _ _ hc hb).bind fun _ _ =>
      ih fun c hm => step c (List.mem_cons_of_mem _ hm)

theorem AgreesUnless.forM {f : β → Action σ ε PUnit} : ∀ {l : List β}, (∀ b ∈ l, AgreesUnless F I Eq (f b) (f b)) →
    AgreesUnless F I Eq (l.forM f) (l.forM f)
  | [], _ => AgreesUnless.pure rfl
  | b :: _, h => (h b List.mem_cons_self).bind fun _ _ _ =>
      AgreesUnless.forM fun c hc => h c (List.mem_cons_of_mem b hc)

/-- **Two results that may only fail in such a way** are there, or else one of them fails so. -/
theorem ResultsUnless.of_failures {r r' : Except ε α} (h : ∀ e, r = .error e → F e) (h' : ∀ e, r' = .error e → F e) :
    ResultsUnless F (fun _ _ => True) r r' := by
  cases r with
  | error e => exact .left (h e rfl)
  | ok a =>
    cases r' with
    | error e => exact .right (h' e rfl)
    | ok b => exact .ok trivial

end Unless

end DocFerry.Action
