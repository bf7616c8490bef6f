/-!
# What readers yield

A reader ends with a result or with a fault, and may carry a state along.  What its parts guarantee, it
guarantees as a whole: of its results, of its faults, and of the state in between.
-/
namespace DocFerry

variable {ε α β σ : Type}

/-- **A result or a fault**, each of some kind. -/
def Yields (P : ε → Prop) (Q : α → Prop) : Except ε α → Prop
  | .ok a => Q a
  | .error fault => P fault

/-- **A reader that keeps what holds of its state**, with a result or a fault of some kind. -/
def Keeps (I : σ → Prop) (P : ε → Prop) (Q : α → Prop) (read : StateT σ (Except ε) α) : Prop :=
  ∀ s, I s → Yields P (fun r => Q r.1 ∧ I r.2) (read.run s)

namespace Yields

variable {P : ε → Prop} {Q : α → Prop} {R : β → Prop} {x : Except ε α}

theorem bind {f : α → Except ε β} (hx : Yields P Q x) (hf : ∀ a, Q a → Yields P R (f a)) :
    Yields P R (x >>= f) := by
  cases x with
  | ok a => exact hf a hx
  | error fault => exact hx

theorem map {f : α → β} (hx : Yields P Q x) (hf : ∀ a, Q a → R (f a)) : Yields P R (x.map f) := by
  cases x with
  | ok a => exact hf a hx
  | error fault => exact hx

theorem imp {P' : ε → Prop} {Q' : α → Prop} (hx : Yields P Q x) (hp : ∀ fault, P fault → P' fault)
    (hq : ∀ a, Q a → Q' a) : Yields P' Q' x := by
  cases x with
  | ok a => exact hq a hx
  | error fault => exact hp fault hx

theorem mapM {f : β → Except ε α} : ∀ {l : List β}, (∀ b ∈ l, Yields P Q (f b)) →
    Yields P (fun as => ∀ a ∈ as, Q a) (l.mapM f)
  | [], _ => List.forall_mem_nil _
  | b :: l, h => by
    rw [List.mapM_cons]
    refine (h b List.mem_cons_self).bind fun a ha => ?_
    refine (mapM fun b hb => h b (List.mem_cons_of_mem _ hb)).bind fun as has => ?_
    exact List.forall_mem_cons.2 ⟨ha, has⟩

end Yields

namespace Keeps

variable {I : σ → Prop} {P : ε → Prop} {Q : α → Prop} {R : β → Prop} {read : StateT σ (Except ε) α}

theorem pure {a : α} (h : Q a) : Keeps I P Q (pure a) := fun _ hs => ⟨h, hs⟩

theorem bind {next : α → StateT σ (Except ε) β} (h : Keeps I P Q read) (k : ∀ a, Q a → Keeps I P R (next a)) :
    Keeps I P R (read >>= next) := fun s hs => (h s hs).bind fun r hr => k r.1 hr.1 r.2 hr.2

theorem get : Keeps I P I (get : StateT σ (Except ε) σ) := fun _ hs => ⟨hs, hs⟩

theorem modify {f : σ → σ} (h : ∀ s, I s → I (f s)) : Keeps I P (fun _ => True) (modify f) :=
  fun s hs => ⟨trivial, h s hs⟩

theorem set {s : σ} (h : I s) : Keeps I P (fun _ => True) (set s) := fun _ _ => ⟨trivial, h⟩

theorem throw {fault : ε} (h : P fault) : Keeps I P Q (throw fault) := fun _ _ => h

theorem lift {x : Except ε α} (h : Yields P Q x) : Keeps I P Q (StateT.lift x) :=
  fun _ hs => h.bind fun _ ha => ⟨ha, hs⟩

theorem mapM {f : β → StateT σ (Except ε) α} : ∀ {l : List β}, (∀ b ∈ l, Keeps I P Q (f b)) →
    Keeps I P (fun as => ∀ a ∈ as, Q a) (l.mapM f)
  | [], _ => .pure (by simp)
  | b :: l, h => by
    rw [List.mapM_cons]
    refine .bind (h b List.mem_cons_self) fun a ha => ?_
    refine .bind (mapM fun b hb => h b (List.mem_cons_of_mem _ hb)) fun as has => ?_
    exact .pure (List.forall_mem_cons.2 ⟨ha, has⟩)

end Keeps

end DocFerry
