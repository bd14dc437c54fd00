/-
Actions on any machine. Two actions coincide if they do the same and give only values of some kind;
they can then stand for each other before whatever does the same with such values, and actions made
of actions that coincide coincide (`Act.Coincide.bind`). So checks can be put into a program to say
what holds at a place in it, and what is proved of them is that the program stays the same.
-/
import EncryptedBackup.Machine

namespace EncryptedBackup.Act

variable {m : Type → Type} [Monad m] {α β : Type}

/-- Two actions do the same and give only what `P` says. -/
structure Coincide (P : α → Prop) (x y : Act m α) : Prop where
  before : ∀ {β : Type} (f g : α → Act m β), (∀ a, P a → f a = g a) → x >>= f = y >>= g

/-- Go on where something holds, and raise an alarm where it does not. -/
def insist (alarm : Error) (p : Prop) [Decidable p] : Act m Unit :=
  if p then return () else throw alarm

namespace Coincide

variable {P P' : α → Prop} {Q : β → Prop} {x y : Act m α} {f g : α → Act m β}

theorem refl (x : Act m α) : Coincide (fun _ => True) x x :=
  ⟨fun _ _ same => bind_congr fun a => same a trivial⟩

theorem mono (same : Coincide P x y) (weaker : ∀ a, P a → P' a) : Coincide P' x y :=
  ⟨fun f g agree => same.before f g fun a holds => agree a (weaker a holds)⟩

variable [LawfulMonad m]

theorem eq (same : Coincide P x y) : x = y := by
  have ended := same.before pure pure fun _ _ => rfl
  rwa [bind_pure, bind_pure] at ended

protected theorem bind (first : Coincide P x y) (next : ∀ a, P a → Coincide Q (f a) (g a)) :
    Coincide Q (x >>= f) (y >>= g) := by
  refine ⟨fun f' g' same => ?_⟩
  rw [bind_assoc, bind_assoc]
  exact first.before _ _ fun a holds => (next a holds).before f' g' same

/-- After one and the same action. -/
theorem andThen (next : ∀ a, Coincide Q (f a) (g a)) : Coincide Q (x >>= f) (x >>= g) :=
  (refl x).bind fun a _ => next a

protected theorem pure {a : α} (holds : P a) : Coincide P (pure a : Act m α) (pure a) := by
  refine ⟨fun f g same => ?_⟩
  rw [pure_bind, pure_bind]
  exact same a holds

/-- Nothing comes after an error. -/
protected theorem throw (e : Error) :
    Coincide (fun _ => False) (throw e : Act m α) (throw e) := by
  refine ⟨fun f g _ => ?_⟩
  simp

theorem ofExcept (outcome : Except Error α) :
    Coincide (fun a => outcome = .ok a) (Act.ofExcept outcome : Act m α) (Act.ofExcept outcome) := by
  cases outcome with
  | ok a => exact .pure rfl
  | error e => exact (Coincide.throw e).mono fun _ => False.elim

end Coincide

variable [LawfulMonad m]

theorem insist_bind {alarm : Error} {p : Prop} [Decidable p] (holds : p) (f : Unit → Act m α) :
    insist alarm p >>= f = f () := by
  unfold insist
  rw [if_pos holds, pure_bind]

theorem sure_bind (x : m α) (f : α → m β) : sure (x >>= f) = sure x >>= fun a => sure (f a) := by
  unfold sure
  apply ExceptT.ext
  simp

theorem sure_pure (a : α) : sure (pure a : m α) = pure a := by
  unfold sure
  apply ExceptT.ext
  simp

end EncryptedBackup.Act
