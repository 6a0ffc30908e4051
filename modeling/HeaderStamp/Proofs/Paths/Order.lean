import HeaderStamp.Paths
import Mathlib.Data.List.Perm.Basic

namespace HeaderStamp

/-- A comparison that puts any two different things in one order. It may say anything of a thing and
itself. -/
structure Arranges {α : Type} (le : α → α → Bool) : Prop where
  total : ∀ a b, a ≠ b → le a b ∨ le b a
  antisymm : ∀ a b, le a b → le b a → a = b
  trans : ∀ a b c, le a b → le b c → le a c

section Lexicographic

variable {α : Type} [DecidableEq α] {le : α → α → Bool} {a b : α} {l m n : List α}

/-- Lists compared where they first differ. A list comes before all longer ones that it begins. -/
def lexLe (le : α → α → Bool) : List α → List α → Bool
  | [], _ => true
  | _ :: _, [] => false
  | a :: as, b :: bs => if a = b then lexLe le as bs else le a b

theorem lexLe_cons_cons :
    lexLe le (a :: l) (b :: m) = true ↔ a = b ∧ lexLe le l m = true ∨ a ≠ b ∧ le a b = true := by
  rw [lexLe]
  by_cases hab : a = b
  · simp [hab]
  · simp [hab]

theorem lexLe_refl (le : α → α → Bool) (l : List α) : lexLe le l l = true := by
  induction l with
  | nil => rfl
  | cons a l ih => exact lexLe_cons_cons.mpr (.inl ⟨rfl, ih⟩)

theorem lexLe_total (h : Arranges le) (hne : l ≠ m) : lexLe le l m = true ∨ lexLe le m l = true := by
  induction l generalizing m with
  | nil => exact .inl rfl
  | cons a l ih =>
    cases m with
    | nil => exact .inr rfl
    | cons b m =>
      simp only [lexLe_cons_cons]
      by_cases hab : a = b
      · subst hab
        have hrest : l ≠ m := fun hlm ↦ hne (congrArg (a :: ·) hlm)
        exact (ih hrest).imp (fun hle ↦ .inl ⟨rfl, hle⟩) (fun hle ↦ .inl ⟨rfl, hle⟩)
      · have htotal := h.total a b hab
        exact htotal.imp (fun hle ↦ .inr ⟨hab, hle⟩) (fun hle ↦ .inr ⟨Ne.symm hab, hle⟩)

theorem lexLe_antisymm (h : Arranges le) (hlm : lexLe le l m = true) (hml : lexLe le m l = true) :
    l = m := by
  induction l generalizing m with
  | nil =>
    cases m with
    | nil => rfl
    | cons b m => cases hml
  | cons a l ih =>
    cases m with
    | nil => cases hlm
    | cons b m =>
      rcases lexLe_cons_cons.mp hlm with ⟨rfl, hrest⟩ | ⟨hab, hle⟩
      · rcases lexLe_cons_cons.mp hml with ⟨-, hback⟩ | ⟨hne, -⟩
        · rw [ih hrest hback]
        · exact absurd rfl hne
      · rcases lexLe_cons_cons.mp hml with ⟨hba, -⟩ | ⟨-, hback⟩
        · exact absurd hba.symm hab
        · exact absurd (h.antisymm a b hle hback) hab

theorem lexLe_trans (h : Arranges le) (hlm : lexLe le l m = true) (hmn : lexLe le m n = true) :
    lexLe le l n = true := by
  induction l generalizing m n with
  | nil => rfl
  | cons a l ih =>
    cases m with
    | nil => cases hlm
    | cons b m =>
      cases n with
      | nil => cases hmn
      | cons c n =>
        rw [lexLe_cons_cons] at hlm hmn ⊢
        rcases hlm with ⟨rfl, hlm⟩ | ⟨hab, hle⟩
        · exact hmn.imp_left fun ⟨hac, hmn⟩ ↦ ⟨hac, ih hlm hmn⟩
        · rcases hmn with ⟨rfl, -⟩ | ⟨-, hbc⟩
          · exact .inr ⟨hab, hle⟩
          · have hac : a ≠ c := by
              rintro rfl
              exact hab (h.antisymm a b hle hbc)
            exact .inr ⟨hac, h.trans a b c hle hbc⟩

theorem Arranges.lexLe (h : Arranges le) : Arranges (lexLe le) where
  total _ _ hne := lexLe_total h hne
  antisymm _ _ hlm hml := lexLe_antisymm h hlm hml
  trans _ _ _ hlm hmn := lexLe_trans h hlm hmn

theorem eq_lexLe {f : List α → List α → Bool} (nil : ∀ l, f [] l = true)
    (cons_nil : ∀ a l, f (a :: l) [] = false)
    (cons_cons : ∀ a b l m, f (a :: l) (b :: m) = if a = b then f l m else le a b) :
    f = HeaderStamp.lexLe le := by
  funext l m
  induction l generalizing m with
  | nil => exact nil m
  | cons a l ih =>
    cases m with
    | nil => exact cons_nil a l
    | cons b m => rw [cons_cons, HeaderStamp.lexLe, ih]

end Lexicographic

theorem Text.le_eq_lexLe : Text.le = lexLe fun a b ↦ decide (a.toNat < b.toNat) :=
  eq_lexLe (fun _ ↦ rfl) (fun _ _ ↦ rfl) fun _ _ _ _ ↦ rfl

theorem Text.arranges_le : Arranges Text.le := by
  rw [Text.le_eq_lexLe]
  refine Arranges.lexLe ⟨?_, ?_, ?_⟩
  · intro a b hne
    have hval : a.toNat ≠ b.toNat := fun h ↦ hne (Char.toNat_inj.mp h)
    simp only [decide_eq_true_eq]
    omega
  · intro a b hab hba
    simp only [decide_eq_true_eq] at hab hba
    omega
  · intro a b c hab hbc
    simp only [decide_eq_true_eq] at hab hbc ⊢
    omega

theorem Component.arranges_le : Arranges Component.le where
  total := by
    intro a b hne
    cases a <;> cases b
    case name.name m n => exact Text.arranges_le.total m n fun h ↦ hne (by rw [h])
    all_goals simp [Component.le, Component.rank]
  antisymm := by
    intro a b hab hba
    cases a <;> cases b
    case name.name m n => rw [Text.arranges_le.antisymm m n hab hba]
    all_goals simp_all [Component.le, Component.rank]
  trans := by
    intro a b c hab hbc
    cases a <;> cases b <;> cases c
    case name.name.name l m n => exact Text.arranges_le.trans l m n hab hbc
    all_goals simp_all [Component.le, Component.rank]

namespace Path

theorem leComponents_eq_lexLe : leComponents = lexLe Component.le :=
  eq_lexLe (fun _ ↦ rfl) (fun _ _ ↦ rfl) fun _ _ _ _ ↦ rfl

theorem arranges_leComponents : Arranges leComponents := by
  rw [leComponents_eq_lexLe]
  exact Component.arranges_le.lexLe

theorem le_of_components_eq {p q : Text} (h : components p = components q) : le p q = true := by
  rw [le, h, leComponents_eq_lexLe]
  exact lexLe_refl _ _

theorem le_total (p q : Text) : (le p q || le q p) = true := by
  rw [Bool.or_eq_true]
  by_cases h : components p = components q
  · exact .inl (le_of_components_eq h)
  · exact arranges_leComponents.total _ _ h

theorem le_trans (p q r : Text) (hpq : le p q = true) (hqr : le q r = true) : le p r = true :=
  arranges_leComponents.trans _ _ _ hpq hqr

def Before (p q : Text) : Prop := le p q = true ∧ components p ≠ components q

theorem Before.of_le {p q r : Text} (hpq : le p q = true) (h : Before q r) : Before p r := by
  refine ⟨le_trans p q r hpq h.1, fun heq ↦ h.2 ?_⟩
  have hrp := le_of_components_eq heq.symm
  exact arranges_leComponents.antisymm _ _ h.1 (le_trans r p q hrp hpq)

/-- Paths in strict order are told by which components occur. -/
theorem map_components_eq_of_before {ps qs : List Text} (hps : ps.Pairwise Before)
    (hqs : qs.Pairwise Before)
    (hmem : ∀ steps, steps ∈ ps.map components ↔ steps ∈ qs.map components) :
    ps.map components = qs.map components := by
  have hsorted {l : List Text} (hl : l.Pairwise Before) :
      (l.map components).Pairwise fun a b ↦ leComponents a b = true ∧ a ≠ b :=
    List.pairwise_map.mpr hl
  have hperm : (ps.map components).Perm (qs.map components) := by
    refine (List.perm_ext_iff_of_nodup ?_ ?_).mpr hmem
    · exact (hsorted hps).imp And.right
    · exact (hsorted hqs).imp And.right
  refine hperm.eq_of_pairwise ?_ (hsorted hps) (hsorted hqs)
  intro a b _ _ hab hba
  exact arranges_leComponents.antisymm a b hab.1 hba.1

end Path

end HeaderStamp
