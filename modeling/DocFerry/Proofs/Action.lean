import Mathlib.Data.List.Forall2
import DocFerry.Action
/-!
# Results and actions taken apart

A result of several steps is a result in each of them (`bind_eq_ok`), and a failure is that of some step
(`bind_eq_error`, `FailsIn.bind`).  An action that yields a result has done so in each of its steps
(`bind_eq_ok_iff`), a run of steps along a list has taken them one after another (`foldlM_cons_eq_ok`), gathers what
each of them yields (`foldlM_gathers`) and has in the end what one of them brings about and all keep
(`foldlM_reaches`), and what each step keeps is kept also where the step depends on what the step before has found
(`Keeps.bindAt`).  What holds after a run of steps, or where one of them fails, follows from what each step comes to
(`Ends.foldlM`).
-/
namespace DocFerry

theorem mapError_eq_ok {α ε ε' : Type} {x : Except ε α} {f : ε → ε'} {a : α} : x.mapError f = .ok a ↔ x = .ok a := by
  cases x <;> simp [Except.mapError]

theorem map_eq_ok {α β ε : Type} {x : Except ε α} {f : α → β} {b : β} (h : x.map f = .ok b) :
    ∃ a, x = .ok a ∧ f a = b := by
  cases x with
  | error e => cases h
  | ok a => exact ⟨a, rfl, Except.ok.inj h⟩

theorem map_eq_error {α β ε : Type} {x : Except ε α} {f : α → β} {e : ε} (h : x.map f = .error e) : x = .error e := by
  cases x with
  | error e' => exact congrArg _ (Except.error.inj h)
  | ok a => cases h

theorem bind_eq_ok {α β ε : Type} {x : Except ε α} {f : α → Except ε β} {b : β} (h : x >>= f = .ok b) :
    ∃ a, x = .ok a ∧ f a = .ok b := by
  cases x with
  | error e => cases h
  | ok a => exact ⟨a, rfl, h⟩

theorem bind_eq_error {α β ε : Type} {x : Except ε α} {f : α → Except ε β} {e : ε} (h : x >>= f = .error e) :
    x = .error e ∨ ∃ a, x = .ok a ∧ f a = .error e := by
  cases x with
  | error e' =>
    cases h
    exact .inl rfl
  | ok a => exact .inr ⟨a, rfl, h⟩

namespace Action

variable {σ ε α β : Type}

/-- **A chain of two actions yields a result exactly if both do.** -/
theorem bind_eq_ok_iff {x : Action σ ε α} {f : α → Action σ ε β} {s t : σ} {b : β} :
    (x >>= f) s = (.ok b, t) ↔ ∃ a u, x s = (.ok a, u) ∧ f a u = (.ok b, t) := by
  rw [bind_apply]
  constructor
  · intro h
    split at h
    · rename_i a u hx
      exact ⟨a, u, hx, h⟩
    · cases h
  · rintro ⟨a, u, hx, hf⟩
    rw [hx]
    exact hf

/-- **A chain of two actions fails** in the first one, or in the second one after the first has yielded a result. -/
theorem bind_eq_error_iff {x : Action σ ε α} {f : α → Action σ ε β} {s t : σ} {e : ε} :
    (x >>= f) s = (.error e, t) ↔ x s = (.error e, t) ∨ ∃ a u, x s = (.ok a, u) ∧ f a u = (.error e, t) := by
  rw [bind_apply]
  rcases x s with ⟨e' | a, u⟩
  · simp
  · simp only [Prod.mk.injEq, reduceCtorEq, false_and, false_or, Except.ok.injEq]
    constructor
    · exact fun h => ⟨a, u, ⟨rfl, rfl⟩, h⟩
    · rintro ⟨b, v, ⟨rfl, rfl⟩, h⟩
      exact h

theorem pure_eq_ok_iff {a b : α} {s t : σ} : (pure a : Action σ ε α) s = (.ok b, t) ↔ a = b ∧ s = t := by
  rw [pure_apply]
  simp

theorem exists_eq_ok {x : Except ε α × σ} (h : x.1.isOk = true) : ∃ a s, x = (.ok a, s) := by
  obtain ⟨_ | a, s⟩ := x
  · cases h
  · exact ⟨a, s, rfl⟩

theorem foldlM_cons_eq_ok {f : β → α → Action σ ε β} {b c : β} {a : α} {l : List α} {s t : σ}
    (h : (a :: l).foldlM f b s = (.ok c, t)) : ∃ d u, f b a s = (.ok d, u) ∧ l.foldlM f d u = (.ok c, t) := by
  rw [List.foldlM_cons] at h
  exact bind_eq_ok_iff.1 h

/-- **An action that fails, if it does, with a cause of some kind**, which may depend on the state it leaves. -/
def FailsIn (P : ε → σ → Prop) (x : Action σ ε α) : Prop := ∀ s e t, x s = (.error e, t) → P e t

theorem FailsIn.pure {P : ε → σ → Prop} (a : α) : FailsIn P (pure a : Action σ ε α) := by
  intro s e t h
  cases h

/-- **A chain fails with such a cause** if both steps do, the second one after each result of the first. -/
theorem FailsIn.bindOf {P : ε → σ → Prop} {x : Action σ ε α} {f : α → Action σ ε β} (hx : FailsIn P x)
    (hf : ∀ a s t, x s = (.ok a, t) → FailsIn P (f a)) : FailsIn P (x >>= f) := by
  intro s e t h
  rcases bind_eq_error_iff.1 h with h | ⟨a, u, ha, h⟩
  · exact hx s e t h
  · exact hf a s u ha u e t h

theorem FailsIn.bind {P : ε → σ → Prop} {x : Action σ ε α} {f : α → Action σ ε β} (hx : FailsIn P x)
    (hf : ∀ a, FailsIn P (f a)) : FailsIn P (x >>= f) := hx.bindOf fun a _ _ _ => hf a

theorem FailsIn.foldlM {P : ε → σ → Prop} {f : β → α → Action σ ε β} : ∀ {l : List α},
    (∀ a ∈ l, ∀ b, FailsIn P (f b a)) → ∀ b, FailsIn P (l.foldlM f b)
  | [], _, b => FailsIn.pure b
  | a :: l, hf, b => by
    rw [List.foldlM_cons]
    exact FailsIn.bind (hf a List.mem_cons_self b) fun c =>
      FailsIn.foldlM (fun d hd => hf d (List.mem_cons_of_mem _ hd)) c

theorem FailsIn.forM {P : ε → σ → Prop} {f : α → Action σ ε PUnit} (hf : ∀ a, FailsIn P (f a)) :
    ∀ l : List α, FailsIn P (l.forM f)
  | [] => FailsIn.pure _
  | a :: l => FailsIn.bind (hf a) fun _ => FailsIn.forM hf l

/-- **What an action comes to from a state**: one thing if it yields a result, and another if it fails. -/
def Ends (x : Action σ ε α) (s : σ) (Q : α → σ → Prop) (E : σ → Prop) : Prop :=
  match x s with
  | (.ok a, t) => Q a t
  | (.error _, t) => E t

theorem Ends.intro {x : Action σ ε α} {s : σ} {Q : α → σ → Prop} {E : σ → Prop}
    (hok : ∀ a t, x s = (.ok a, t) → Q a t) (herror : ∀ e t, x s = (.error e, t) → E t) : Ends x s Q E := by
  unfold Ends
  split
  · exact hok _ _ ‹_›
  · exact herror _ _ ‹_›

/-- **An action that has come to its end.** -/
theorem Ends.elim {x : Action σ ε α} {s t : σ} {Q : α → σ → Prop} {E : σ → Prop} (h : Ends x s Q E) {r : Except ε α}
    (hx : x s = (r, t)) : (∃ a, r = .ok a ∧ Q a t) ∨ (∃ e, r = .error e) ∧ E t := by
  unfold Ends at h
  rw [hx] at h
  cases r with
  | error e => exact .inr ⟨⟨e, rfl⟩, h⟩
  | ok a => exact .inl ⟨a, rfl, h⟩

theorem Ends.imp {x : Action σ ε α} {s : σ} {Q Q' : α → σ → Prop} {E E' : σ → Prop} (h : Ends x s Q E)
    (hok : ∀ a t, Q a t → Q' a t) (herror : ∀ t, E t → E' t) : Ends x s Q' E' := by
  unfold Ends at h ⊢
  split at h
  · exact hok _ _ h
  · exact herror _ h

theorem Ends.bind {x : Action σ ε α} {f : α → Action σ ε β} {s : σ} {P : α → σ → Prop} {Q : β → σ → Prop}
    {E : σ → Prop} (hx : Ends x s P E) (hf : ∀ a t, P a t → Ends (f a) t Q E) : Ends (x >>= f) s Q E := by
  unfold Ends at hx ⊢
  rw [bind_apply]
  generalize x s = result at hx ⊢
  obtain ⟨e | a, t⟩ := result
  · exact hx
  · exact hf a t hx

/-- **A run of steps** keeps what holds of the steps that have been taken, if each of them does. -/
theorem Ends.foldlM {f : β → α → Action σ ε β} {I : List α → β → σ → Prop} {E : σ → Prop} {l : List α}
    (step : ∀ before a after, l = before ++ a :: after → ∀ b s, I before b s →
      Ends (f b a) s (I (before ++ [a])) E) {b : β} {s : σ} (h : I [] b s) : Ends (l.foldlM f b) s (I l) E := by
  suffices ∀ after before, l = before ++ after → ∀ b s, I before b s → Ends (after.foldlM f b) s (I l) E from
    this l [] rfl b s h
  intro after
  induction after with
  | nil =>
    rintro before rfl b s hb
    rw [List.append_nil]
    exact hb
  | cons a after ih =>
    intro before hl b s hb
    rw [List.foldlM_cons]
    exact Ends.bind (step before a after hl b s hb) fun c t hc => ih (before ++ [a]) (by simpa using hl) c t hc

/-- **A run of steps gathers what each of them yields**, in order.  `Q` tells the yields of different steps
apart, so a step may count on it that nothing of its own has been gathered yet. -/
theorem foldlM_gathers {γ : Type} {f : β → α → Action σ ε β} {I : β → List γ → σ → Prop} {G : α → List γ → Prop}
    {Q : α → γ → Prop} (own : ∀ a more, G a more → ∀ c ∈ more, Q a c) : ∀ (l : List α),
    (∀ a ∈ l, ∀ b got s c t, I b got s → (∀ x ∈ got, ¬ Q a x) → f b a s = (.ok c, t) →
      ∃ more, G a more ∧ I c (got ++ more) t) →
    l.Pairwise (fun a b => ∀ c, Q a c → ¬ Q b c) →
    ∀ {b : β} {got : List γ} {s : σ} {c : β} {t : σ}, I b got s → (∀ x ∈ got, ∀ a ∈ l, ¬ Q a x) →
      l.foldlM f b s = (.ok c, t) → ∃ parts, List.Forall₂ G l parts ∧ I c (got ++ parts.flatten) t
  | [], _, _, b, got, s, c, t, hi, _, h => by
    obtain ⟨rfl, rfl⟩ := pure_eq_ok_iff.1 h
    exact ⟨[], .nil, by simpa using hi⟩
  | a :: l, step, apart, b, got, s, c, t, hi, hnew, h => by
    obtain ⟨d, u, ha, hl⟩ := foldlM_cons_eq_ok h
    obtain ⟨more, hmore, hi⟩ := step a List.mem_cons_self _ _ _ _ _ hi (fun x hx => hnew x hx a List.mem_cons_self) ha
    obtain ⟨hfirst, hrest⟩ := List.pairwise_cons.1 apart
    have hnew' : ∀ x ∈ got ++ more, ∀ b ∈ l, ¬ Q b x := by
      intro x hx b hb
      rcases List.mem_append.1 hx with hx | hx
      · exact hnew x hx b (List.mem_cons_of_mem _ hb)
      · exact hfirst b hb x (own a more hmore x hx)
    obtain ⟨parts, hparts, hi⟩ := foldlM_gathers own l (fun b hb => step b (List.mem_cons_of_mem _ hb)) hrest hi
      hnew' hl
    exact ⟨more :: parts, .cons hmore hparts, by simpa using hi⟩

/-- **A run of steps split at one of them**: the state that the steps before it leave, and that which it leaves. -/
theorem mapM_split {f : α → Action σ ε β} {before after : List α} {a : α} {bs : List β} {s t : σ}
    (h : (before ++ a :: after).mapM f s = (.ok bs, t)) :
    ∃ u v b, (before.mapM f s).2 = u ∧ f a u = (.ok b, v) ∧ (after.mapM f v).2 = t ∧ b ∈ bs := by
  rw [List.mapM_append] at h
  obtain ⟨bs₁, u, hbefore, h⟩ := bind_eq_ok_iff.1 h
  obtain ⟨bs₂, t', hrest, h⟩ := bind_eq_ok_iff.1 h
  obtain ⟨rfl, rfl⟩ := pure_eq_ok_iff.1 h
  rw [List.mapM_cons] at hrest
  obtain ⟨b, v, ha, hrest⟩ := bind_eq_ok_iff.1 hrest
  obtain ⟨bs₃, t, hafter, hrest⟩ := bind_eq_ok_iff.1 hrest
  obtain ⟨rfl, rfl⟩ := pure_eq_ok_iff.1 hrest
  exact ⟨u, v, b, by rw [hbefore], ha, by rw [hafter], by simp⟩

theorem forM_split {f : α → Action σ ε PUnit} : ∀ {before after : List α} {a : α} {s t : σ},
    (before ++ a :: after).forM f s = (.ok (), t) →
    ∃ u v, (before.forM f s).2 = u ∧ f a u = (.ok (), v) ∧ (after.forM f v).2 = t
  | [], _, _, _, _, h => by
    obtain ⟨_, v, ha, hafter⟩ := bind_eq_ok_iff.1 h
    exact ⟨_, v, rfl, ha, by rw [hafter]⟩
  | b :: before, after, a, s, t, h => by
    obtain ⟨_, u, hb, h⟩ := bind_eq_ok_iff.1 h
    obtain ⟨v, w, hbefore, ha, hafter⟩ := forM_split h
    refine ⟨v, w, ?_, ha, hafter⟩
    rw [← hbefore]
    show ((f b >>= fun _ => before.forM f) s).2 = _
    rw [bind_apply, hb]

/-- **What each step of a run keeps, of its result and of the state,** the run keeps. -/
theorem foldlM_keeps {f : β → α → Action σ ε β} {J : β → σ → Prop} : ∀ {l : List α},
    (∀ a ∈ l, ∀ b s c t, f b a s = (.ok c, t) → J b s → J c t) →
    ∀ {b : β} {s : σ} {c : β} {t : σ}, l.foldlM f b s = (.ok c, t) → J b s → J c t
  | [], _, _, _, _, _, h, hj => by
    obtain ⟨rfl, rfl⟩ := pure_eq_ok_iff.1 h
    exact hj
  | a :: l, step, _, _, _, _, h, hj => by
    obtain ⟨d, u, ha, hl⟩ := foldlM_cons_eq_ok h
    exact foldlM_keeps (fun b hb => step b (List.mem_cons_of_mem _ hb)) hl (step a List.mem_cons_self _ _ _ _ ha hj)

/-- **What one step of a run brings about** is there in the end, if every step keeps it. -/
theorem foldlM_reaches {f : β → α → Action σ ε β} {I : σ → Prop} {P : β → Prop} {l : List α} {a : α} (hmem : a ∈ l)
    (keep : ∀ x ∈ l, ∀ b s c t, f b x s = (.ok c, t) → I s → I t ∧ (P b → P c))
    (reach : ∀ b s c t, f b a s = (.ok c, t) → I s → P c) {b c : β} {s t : σ} (h : l.foldlM f b s = (.ok c, t))
    (hi : I s) : P c := by
  obtain ⟨before, after, rfl⟩ := List.append_of_mem hmem
  rw [List.foldlM_append] at h
  obtain ⟨d, u, hbefore, h⟩ := bind_eq_ok_iff.1 h
  obtain ⟨e, v, ha, hafter⟩ := foldlM_cons_eq_ok h
  have hu := foldlM_keeps (J := fun _ s => I s) (fun x hx b s c t hf hs => (keep x (by simp [hx]) b s c t hf hs).1)
    hbefore hi
  have hv := (keep a hmem d u e v ha hu).1
  exact (foldlM_keeps (J := fun b s => I s ∧ P b) (fun x hx b s c t hf hs =>
    ⟨(keep x (by simp [hx]) b s c t hf hs.1).1, (keep x (by simp [hx]) b s c t hf hs.1).2 hs.2⟩) hafter
    ⟨hv, reach d u e v ha hu⟩).2

/-- **A run of steps changes nothing** if none of them changes the state that it starts from. -/
theorem forM_fixed {f : α → Action σ ε PUnit} {s : σ} : ∀ {l : List α},
    (∀ a ∈ l, ∀ t, f a s = (.ok (), t) → t = s) → ∀ {t : σ}, l.forM f s = (.ok (), t) → t = s
  | [], _, _, h => (pure_eq_ok_iff.1 h).2.symm
  | a :: _, step, _, h => by
    obtain ⟨_, u, ha, hl⟩ := bind_eq_ok_iff.1 h
    obtain rfl := step a List.mem_cons_self u ha
    exact forM_fixed (fun b hb => step b (List.mem_cons_of_mem _ hb)) hl

variable {R : σ → σ → Prop}

/-- **What both steps of a chain keep**, the second at the state and the result that the first one leaves. -/
theorem Keeps.bindAt (trans : ∀ s t u, R s t → R t u → R s u) {x : Action σ ε α} {f : α → Action σ ε β} {s : σ}
    (hx : R s (x s).2) (hf : ∀ a t, x s = (.ok a, t) → R t (f a t).2) : R s ((x >>= f) s).2 := by
  rw [bind_apply]
  rcases hs : x s with ⟨_ | a, t⟩ <;> rw [hs] at hx
  · exact hx
  · exact trans _ _ _ hx (hf a t hs)

theorem Keeps.mapM (refl : ∀ s, R s s) (trans : ∀ s t u, R s t → R t u → R s u) {f : α → Action σ ε β} :
    ∀ (l : List α), (∀ a ∈ l, Keeps R (f a)) → Keeps R (l.mapM f)
  | [], _ => by
    rw [List.mapM_nil]
    exact Keeps.pure refl _
  | a :: l, h => by
    rw [List.mapM_cons]
    refine Keeps.bind trans (h a List.mem_cons_self) fun b => ?_
    refine Keeps.bind trans (Keeps.mapM refl trans l fun c hc => h c (List.mem_cons_of_mem _ hc)) fun bs => ?_
    exact Keeps.pure refl _

theorem Keeps.forM (refl : ∀ s, R s s) (trans : ∀ s t u, R s t → R t u → R s u) {f : α → Action σ ε PUnit} :
    ∀ (l : List α), (∀ a ∈ l, Keeps R (f a)) → Keeps R (l.forM f)
  | [], _ => Keeps.pure refl _
  | a :: l, h =>
    Keeps.bind trans (h a List.mem_cons_self) fun _ =>
      Keeps.forM refl trans l fun c hc => h c (List.mem_cons_of_mem _ hc)

theorem Keeps.foldlM_mem (refl : ∀ s, R s s) (trans : ∀ s t u, R s t → R t u → R s u) {f : β → α → Action σ ε β} :
    ∀ (l : List α), (∀ a ∈ l, ∀ b, Keeps R (f b a)) → ∀ b, Keeps R (l.foldlM f b)
  | [], _, b => Keeps.pure refl b
  | a :: l, h, b => by
    rw [List.foldlM_cons]
    exact Keeps.bind trans (h a List.mem_cons_self b) fun c =>
      Keeps.foldlM_mem refl trans l (fun d hd => h d (List.mem_cons_of_mem _ hd)) c

end Action
end DocFerry
