import Mathlib.Data.List.Basic
import Mathlib.Tactic

/-!
# `Lib.Disk` — files in directories

A storage of files by directory and name, one level deep. A save makes the directory it needs, and a directory that is
renamed takes its files along.
-/

namespace CpcJudge

variable {ν C : Type} [DecidableEq ν]

structure Disk (ν C : Type) where
  directories : List ν
  files : List ((ν × ν) × C)
  inside : ∀ item ∈ files, item.1.1 ∈ directories

namespace Disk

/-- Why a directory is not renamed: `ENOENT`, or `ENOTEMPTY`. -/
inductive RenameError where
  | notFound
  | notEmpty
  deriving DecidableEq

variable (d : Disk ν C) (path other : ν × ν) (content : C)

def get? : Option C := (d.files.find? (·.1 = path)).map (·.2)

def delete : Disk ν C where
  directories := d.directories
  files := d.files.filter (·.1 ≠ path)
  inside item hitem := d.inside item (List.mem_of_mem_filter hitem)

/-- A file that is there is deleted first. -/
def save : Disk ν C where
  directories := if path.1 ∈ d.directories then d.directories else path.1 :: d.directories
  files := (d.delete path).files ++ [(path, content)]
  inside := by
    intro item hitem
    rcases List.mem_append.mp hitem with hitem | hitem
    · have hold := (d.delete path).inside item hitem
      split
      · exact hold
      · exact List.mem_cons_of_mem _ hold
    · rw [List.mem_singleton.mp hitem]
      split
      · assumption
      · exact List.mem_cons_self

/-- The path of a file after its directory is renamed. -/
def moved (old new : ν) (path : ν × ν) : ν × ν := if path.1 = old then (new, path.2) else path

/-- `os.rename` of a directory. -/
def rename (old new : ν) : Except RenameError (Disk ν C) :=
  if old ∉ d.directories then .error .notFound
  else if d.files.any (·.1.1 = new) then .error .notEmpty
  else
    .ok
      { directories := new :: d.directories.filter (· ≠ old)
        files := d.files.map fun item => (moved old new item.1, item.2)
        inside := by
          intro item hitem
          obtain ⟨before, hbefore, rfl⟩ := List.mem_map.mp hitem
          show (moved old new before.1).1 ∈ _
          rw [moved]
          split
          next => exact List.mem_cons_self
          next hstays =>
            exact List.mem_cons_of_mem _ (List.mem_filter.mpr ⟨d.inside before hbefore, decide_eq_true hstays⟩) }

variable {d path other content}

theorem get?_eq_none : d.get? path = none ↔ ∀ item ∈ d.files, item.1 ≠ path := by
  simp [get?]

@[simp] theorem get?_delete_self : (d.delete path).get? path = none :=
  get?_eq_none.mpr fun _ hitem => of_decide_eq_true (List.mem_filter.mp hitem).2

theorem get?_delete_of_ne (h : other ≠ path) : (d.delete path).get? other = d.get? other := by
  rw [get?, get?, delete, List.find?_filter]
  congr 2
  funext item
  by_cases hitem : item.1 = other
  · simp [hitem, h]
  · simp [hitem]

@[simp] theorem get?_save_self : (d.save path content).get? path = some content := by
  have hnone : (d.delete path).files.find? (·.1 = path) = none := by
    have hdeleted : (d.delete path).get? path = none := get?_delete_self
    rwa [get?, Option.map_eq_none_iff] at hdeleted
  rw [get?, save, List.find?_append, hnone]
  simp

theorem get?_save_of_ne (h : other ≠ path) : (d.save path content).get? other = d.get? other := by
  have hsplit : (d.save path content).get? other =
      (((d.delete path).files ++ [(path, content)]).find? (·.1 = other)).map (·.2) := rfl
  rw [hsplit, List.find?_append, List.find?_singleton, if_neg (by simpa using h.symm), Option.or_none,
    ← get?_delete_of_ne h, get?]

theorem mem_directories (h : d.get? path = some content) : path.1 ∈ d.directories := by
  obtain ⟨item, hitem, -⟩ := Option.map_eq_some_iff.mp h
  have hpath : item.1 = path := by simpa using List.find?_some hitem
  exact hpath ▸ d.inside item (List.mem_of_find?_eq_some hitem)

/-- A file is found in the new directory under its name. -/
theorem get?_rename {old new name : ν} {d' : Disk ν C} (h : d.rename old new = .ok d') :
    d'.get? (new, name) = d.get? (old, name) := by
  unfold rename at h
  split at h
  · cases h
  · split at h
    · cases h
    next hempty =>
      obtain rfl := Except.ok.inj h
      have hnew : ∀ item ∈ d.files, item.1.1 ≠ new := fun item hitem heq =>
        hempty (List.any_eq_true.mpr ⟨item, hitem, decide_eq_true heq⟩)
      rw [get?, get?, List.find?_map, Option.map_map]
      congr 1
      refine List.find?_congr fun item hitem => ?_
      have hitem := hnew item hitem
      by_cases hold : item.1.1 = old
      · simp [moved, hold, Prod.ext_iff]
      · simp [moved, hold, Prod.ext_iff, hitem]

end Disk
end CpcJudge
