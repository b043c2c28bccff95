import Mathlib.Data.List.Count
import Mathlib.Logic.Function.Basic

/-! How many of the live holders refer to one target, and how creating a holder, moving one and
dropping one change these numbers. -/

namespace RefCount

variable {Holder Target : Type} [DecidableEq Target]

def refs (live : List Holder) (target : Holder → Target) (t : Target) : Nat :=
  live.countP fun h => target h = t

variable {live : List Holder} {target other : Holder → Target} {h : Holder} {t : Target}

theorem refs_congr (same : ∀ g ∈ live, target g = other g) (t : Target) :
    refs live target t = refs live other t :=
  List.countP_congr fun g member => by rw [same g member]

theorem refs_pos (member : h ∈ live) : 0 < refs live target (target h) :=
  List.countP_pos_iff.mpr ⟨h, member, decide_eq_true rfl⟩

variable [DecidableEq Holder]

theorem refs_new (fresh : h ∉ live) (t t' : Target) :
    refs (h :: live) (Function.update target h t) t' =
      refs live target t' + if t = t' then 1 else 0 := by
  have rest : refs live (Function.update target h t) t' = refs live target t' := by
    apply refs_congr
    intro g member
    rw [Function.update_of_ne]
    intro same
    exact fresh (same ▸ member)
  rw [refs, List.countP_cons, ← refs, rest, Function.update_self]
  simp

theorem refs_drop (member : h ∈ live) (t : Target) :
    refs (live.erase h) target t + (if target h = t then 1 else 0) = refs live target t := by
  have parts := (List.perm_cons_erase member).countP_eq fun g => decide (target g = t)
  rw [List.countP_cons] at parts
  rw [refs, refs, parts]
  simp

theorem refs_sole (single : refs live target (target h) = 1)
    (member : h ∈ live) {g : Holder} (live' : g ∈ live) (same : target g = target h) : g = h := by
  by_contra differs
  have kept : g ∈ live.erase h := (List.mem_erase_of_ne differs).mpr live'
  have rest : 0 < refs (live.erase h) target (target g) := refs_pos kept
  have dropped : refs (live.erase h) target (target h) + (if target h = target h then 1 else 0) =
      refs live target (target h) := refs_drop member (target h)
  rw [same] at rest
  simp only [if_true] at dropped
  omega

end RefCount
