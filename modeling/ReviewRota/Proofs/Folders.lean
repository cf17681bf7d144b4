import Mathlib.Data.List.Basic
import ReviewRota.Files.Folder

/-!
# Databases in folders

An opening makes folders, and a database where there is no file.  What else is in the folder stays,
so that an opening works on the catalog that the one before it left.
-/

namespace ReviewRota

namespace Folder

variable {f g : Folder} {path q : FilePath} {node : Node} {name : String}

theorem lookup_put (f : Folder) (path q : FilePath) (node : Node) :
    (f.put path node).nodes.lookup q = if q = path then some node else f.nodes.lookup q := by
  have hothers : ∀ nodes : List (FilePath × Node),
      (nodes.filter fun entry => entry.1 ≠ path).lookup q =
        if q = path then none else nodes.lookup q := by
    intro nodes
    induction nodes with
    | nil => exact (ite_self none).symm
    | cons entry rest ih =>
        by_cases hpath : entry.1 = path
        · rw [List.filter_cons_of_neg (by simpa using hpath), ih, List.lookup_cons, hpath]
          split
          · rfl
          · next hq => rw [beq_eq_false_iff_ne.2 hq]
        · rw [List.filter_cons_of_pos (by simpa using hpath), List.lookup_cons, List.lookup_cons,
            ih]
          cases hq : q == entry.1 with
          | true => exact (if_neg fun hsame => hpath (eq_of_beq hq ▸ hsame)).symm
          | false => rfl
  rw [put, List.lookup_append]
  change ((f.nodes.filter fun entry => entry.1 ≠ path).lookup q).or _ = _
  rw [hothers]
  split
  · next hq => rw [hq, Option.none_or, List.lookup_cons, beq_self_eq_true]
  · next hq => rw [List.lookup_cons, beq_eq_false_iff_ne.2 hq, List.lookup_nil, Option.or_none]

theorem node?_of_root (h : q = [] ∨ q = ["/"]) (f : Folder) : f.node? q = some .folder := by
  rw [node?, if_pos h]

theorem node?_put (h : ¬ (q = [] ∨ q = ["/"])) :
    (f.put path node).node? q = if q = path then some node else f.node? q := by
  rw [node?, if_neg h, lookup_put, node?, if_neg h]

/-- Whether a folder differs from another by folders that are new. -/
def Extends (f g : Folder) : Prop :=
  ∀ q, g.node? q = f.node? q ∨ f.node? q = none ∧ g.node? q = some .folder

theorem Extends.makeFolder (h : f.Extends g)
    (hpath : f.node? path = none ∨ f.node? path = some .folder) :
    f.Extends (if g.isFolder path then g else g.put path .folder) := by
  split
  · exact h
  · next hg =>
      intro q
      by_cases hroot : q = [] ∨ q = ["/"]
      · rw [node?_of_root hroot, node?_of_root hroot]
        exact .inl rfl
      · rw [node?_put hroot]
        split
        · next hq =>
            rw [hq]
            exact hpath.symm.imp Eq.symm fun hnone => ⟨hnone, rfl⟩
        · exact h q

theorem Extends.makeFolders {paths : List FilePath} (h : f.Extends g)
    (hpaths : ∀ p ∈ paths, f.node? p = none ∨ f.node? p = some .folder) :
    f.Extends (paths.foldl (fun f p => if f.isFolder p then f else f.put p .folder) g) := by
  induction paths generalizing g with
  | nil => exact h
  | cons p rest ih =>
      exact ih (h.makeFolder (hpaths p List.mem_cons_self))
        fun p' hp' => hpaths p' (List.mem_cons_of_mem p hp')

theorem mem_way {p : FilePath} (h : p ∈ path.way) :
    p = path ∨ p ∈ FilePath.way path.dropLast := by
  rw [FilePath.way, List.mem_map] at h
  obtain ⟨n, hn, rfl⟩ := h
  rw [List.mem_range] at hn
  by_cases hlast : n = path.length
  · exact .inl (List.take_of_length_le (Nat.le_of_eq hlast.symm))
  · refine .inr (List.mem_map.2 ⟨n, List.mem_range.2 ?_, ?_⟩)
    · rw [List.length_dropLast]
      omega
    · rw [List.dropLast_eq_take, List.take_take, Nat.min_eq_left (by omega)]

theorem extends_makeFolders (h : f.makeFolders path = .ok g) : f.Extends g := by
  rw [Folder.makeFolders] at h
  split at h
  · cases h
  · next hblocked =>
      split at h
      · cases h
        exact fun _ => .inl rfl
      · cases h
      · next hnone =>
          cases h
          refine Extends.makeFolders (fun _ => .inl rfl) fun p hp => ?_
          obtain rfl | hway := mem_way hp
          · exact .inl hnone
          · cases hp : f.node? p with
            | none => exact .inl rfl
            | some node =>
                right
                by_contra hother
                refine hblocked (List.any_eq_true.2 ⟨p, hway, ?_⟩)
                rw [hp, Option.any_some, decide_eq_true_eq]
                exact fun hfolder => hother (congrArg some hfolder)

def stored (f : Folder) (name : String) : Catalog :=
  match f.node? (FilePath.ofText name) with
  | some (.database c) => c
  | _ => ∅

theorem Extends.stored (h : f.Extends g) (name : String) : g.stored name = f.stored name := by
  rw [Folder.stored, Folder.stored]
  obtain hsame | ⟨hnone, hfolder⟩ := h (FilePath.ofText name)
  · rw [hsame]
  · rw [hnone, hfolder]

theorem catalog_eq_ok {c : Catalog} {mustExist : Bool}
    (h : f.catalog (.file name mustExist) = .ok c) :
    c = f.stored name ∧ f.node? (FilePath.ofText name) ≠ some .folder := by
  rw [catalog] at h
  rw [stored]
  cases hnode : f.node? (FilePath.ofText name) with
  | none =>
      rw [hnode] at h
      dsimp only at h
      split at h <;> cases h
      exact ⟨rfl, nofun⟩
  | some node =>
      rw [hnode] at h
      cases node with
      | folder => cases h
      | file content =>
          dsimp only at h
          split at h <;> cases h
          exact ⟨rfl, nofun⟩
      | database c =>
          cases h
          exact ⟨rfl, nofun⟩

theorem stored_keep (h : f.node? (FilePath.ofText name) ≠ some .folder) (c : Catalog)
    (mustExist : Bool) : (f.keep c (.file name mustExist)).stored name = c := by
  have hroot : ¬ (FilePath.ofText name = [] ∨ FilePath.ofText name = ["/"]) :=
    fun hroot => h (node?_of_root hroot f)
  rw [keep, stored, node?_put hroot, if_pos rfl]

def Reaches (f : Folder) (path : String) (location : Location) : Prop :=
  ∃ g c, f.makeFolders (FilePath.ofText path).dropLast = .ok g ∧ g.catalog location = .ok c

section

variable {refusals : Refusals} {path : String} {mustExist : Bool}
  (hlocation : Location.ofPath path = .ok (.file name mustExist))

include hlocation

theorem openDatabase_of_reaches (h : f.Reaches path (.file name mustExist)) :
    let migrated := (f.stored name).migrate refusals Migration.all
    (f.openDatabase refusals path).result = migrated.result.mapError .storage ∧
      (f.openDatabase refusals path).events = migrated.events ∧
      (f.openDatabase refusals path).folder.stored name = migrated.catalog := by
  obtain ⟨g, c, hfolders, hcatalog⟩ := h
  have hstored : g.stored name = f.stored name := (extends_makeFolders hfolders).stored name
  obtain ⟨rfl, hnode⟩ := catalog_eq_ok hcatalog
  rw [openDatabase, hfolders]
  dsimp only
  rw [hlocation]
  dsimp only
  rw [hcatalog]
  dsimp only
  rw [hstored]
  exact ⟨rfl, rfl, stored_keep hnode _ mustExist⟩

theorem openDatabase_of_not_reaches (h : ¬ f.Reaches path (.file name mustExist)) :
    (∃ fault, (f.openDatabase refusals path).result = .error fault) ∧
      (f.openDatabase refusals path).events = [] ∧
      (f.openDatabase refusals path).folder.stored name = f.stored name := by
  rw [openDatabase]
  cases hfolders : f.makeFolders (FilePath.ofText path).dropLast with
  | error reason => exact ⟨⟨_, rfl⟩, rfl, rfl⟩
  | ok g =>
      dsimp only
      rw [hlocation]
      dsimp only
      cases hcatalog : g.catalog (.file name mustExist) with
      | error fault => exact ⟨⟨_, rfl⟩, rfl, (extends_makeFolders hfolders).stored name⟩
      | ok c => exact (h ⟨g, c, hfolders, hcatalog⟩).elim

end

end Folder

end ReviewRota
