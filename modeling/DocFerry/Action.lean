/-!
# Actions on a state

An action changes a state and yields a result or fails; either way it leaves a state, so what the
steps before a failure have done is not lost.

Main facts: how each combinator acts on a state (`pure_apply`, `bind_apply`, `throw_apply`,
`tryCatch_apply`), and what every step keeps is kept by the whole (`Keeps.bind`, `Keeps.foldlM`).
-/
namespace DocFerry

/-- **An action** on states of one type, which yields a result or fails with a cause. -/
def Action (σ ε α : Type) : Type := σ → Except ε α × σ

namespace Action

variable {σ ε α β : Type}

instance : Monad (Action σ ε) where
  pure a := fun s => (.ok a, s)
  bind x f := fun s =>
    match x s with
    | (.ok a, t) => f a t
    | (.error e, t) => (.error e, t)

instance : MonadExceptOf ε (Action σ ε) where
  throw e := fun s => (.error e, s)
  tryCatch x handle := fun s =>
    match x s with
    | (.ok a, t) => (.ok a, t)
    | (.error e, t) => handle e t

instance : MonadStateOf σ (Action σ ε) where
  get := fun s => (.ok s, s)
  set t := fun _ => (.ok (), t)
  modifyGet f := fun s => (.ok (f s).1, (f s).2)

/-- **A result, or a failure**, that leaves the state alone. -/
def ofExcept (r : Except ε α) : Action σ ε α := fun s => (r, s)

theorem pure_apply (a : α) (s : σ) : (pure a : Action σ ε α) s = (.ok a, s) := rfl

theorem bind_apply (x : Action σ ε α) (f : α → Action σ ε β) (s : σ) :
    (x >>= f) s = match x s with
      | (.ok a, t) => f a t
      | (.error e, t) => (.error e, t) := rfl

theorem tryCatch_apply (x : Action σ ε α) (handle : ε → Action σ ε α) (s : σ) :
    (tryCatch x handle) s = match x s with
      | (.ok a, t) => (.ok a, t)
      | (.error e, t) => handle e t := rfl

theorem get_apply (s : σ) : (get : Action σ ε σ) s = (.ok s, s) := rfl

theorem set_apply (t s : σ) : (set t : Action σ ε PUnit) s = (.ok (), t) := rfl

theorem modify_apply (f : σ → σ) (s : σ) : (modify f : Action σ ε PUnit) s = (.ok (), f s) := rfl

instance : LawfulMonad (Action σ ε) :=
  LawfulMonad.mk' (Action σ ε)
    (by
      intro α x
      funext s
      show (x >>= fun a => pure (id a)) s = x s
      rw [bind_apply]
      rcases x s with ⟨_ | _, _⟩ <;> rfl)
    (by intros; rfl)
    (by
      intro α β γ x f g
      funext s
      rw [bind_apply, bind_apply, bind_apply]
      rcases x s with ⟨_ | _, _⟩ <;> rfl)

/-- **What an action keeps**: a relation between the state before and the state after, whether or
not it fails. -/
def Keeps (R : σ → σ → Prop) (x : Action σ ε α) : Prop := ∀ s, R s (x s).2

variable {R : σ → σ → Prop}

theorem Keeps.pure (refl : ∀ s, R s s) (a : α) : Keeps R (Pure.pure a : Action σ ε α) := refl

theorem Keeps.throw (refl : ∀ s, R s s) (e : ε) : Keeps R (MonadExcept.throw e : Action σ ε α) := refl

theorem Keeps.get (refl : ∀ s, R s s) : Keeps R (MonadState.get : Action σ ε σ) := refl

theorem Keeps.bind (trans : ∀ s t u, R s t → R t u → R s u) {x : Action σ ε α}
    {f : α → Action σ ε β} (hx : Keeps R x) (hf : ∀ a, Keeps R (f a)) : Keeps R (x >>= f) := by
  intro s
  rw [bind_apply]
  have h := hx s
  rcases hs : x s with ⟨_ | a, t⟩ <;> rw [hs] at h
  · exact h
  · exact trans _ _ _ h (hf a t)

theorem Keeps.tryCatch (trans : ∀ s t u, R s t → R t u → R s u) {x : Action σ ε α}
    {handle : ε → Action σ ε α} (hx : Keeps R x) (hh : ∀ e, Keeps R (handle e)) :
    Keeps R (MonadExcept.tryCatch x handle) := by
  intro s
  show R s ((match x s with | (.ok a, t) => (.ok a, t) | (.error e, t) => handle e t) : Except ε α × σ).2
  have h := hx s
  rcases hs : x s with ⟨e | a, t⟩ <;> rw [hs] at h
  · exact trans _ _ _ h (hh e t)
  · exact h

theorem Keeps.foldlM (refl : ∀ s, R s s) (trans : ∀ s t u, R s t → R t u → R s u)
    {f : β → α → Action σ ε β} (hf : ∀ b a, Keeps R (f b a)) (b : β) (l : List α) :
    Keeps R (l.foldlM f b) := by
  induction l generalizing b with
  | nil => exact Keeps.pure refl b
  | cons a l ih =>
    rw [List.foldlM_cons]
    exact Keeps.bind trans (hf b a) ih

end Action
end DocFerry
