import Mathlib
import Chiptune.FileTree
import Chiptune.Proofs.Outcome

/-!
# Stored files

After a file is written, its path leads to the content, every path leads where it led before, and
at all other places the tree holds what it held.
-/

namespace Chiptune.FileTree

open Text (Points CodePoint)

/-- The place that a name leads to from a folder. -/
def enter (path : Points) (place : Place) (name : Points) : Outcome Place :=
  if name = [] ∨ name = here then pure place
  else if name = above then pure place.dropLast
  else if total CodePoint.size name > longestName then throw (.file (.nameTooLong path))
  else pure (place ++ [name])

/-- All places above are folders. -/
def Rooted (tree : FileTree) (place : Place) : Prop :=
  ∀ folder, folder <+: place → folder ≠ place → tree.isFolder folder = true

/-- The second tree is the first one with a file at a place that no folder takes. -/
structure Stores (tree : FileTree) (place : Place) (content : Bytes) (after : FileTree) : Prop where
  rooted : tree.Rooted place
  free : tree.node? place ≠ some .folder
  eq : after = { tree with files := (place, content) :: tree.files.filter (·.1 != place) }

variable {tree after : FileTree} {path : Points} {place : Place} {content : Bytes}

lemma isFolder_iff : tree.isFolder place = true ↔
    place <+: tree.workingPlace ∨ (∃ folder ∈ tree.folders, place <+: folder) ∨
      ∃ file ∈ tree.files, place <+: file.1 ∧ place ≠ file.1 := by
  simp [isFolder, or_assoc, List.isPrefixOf_iff_prefix]

lemma isFolder_of_prefix {folder : Place} (h : tree.isFolder place = true)
    (hf : folder <+: place) : tree.isFolder folder = true := by
  apply isFolder_iff.mpr
  rcases isFolder_iff.mp h with h | ⟨listed, hl, h⟩ | ⟨file, hfile, h, hne⟩
  · exact .inl (hf.trans h)
  · exact .inr (.inl ⟨listed, hl, hf.trans h⟩)
  · refine .inr (.inr ⟨file, hfile, hf.trans h, ?_⟩)
    rintro rfl
    exact hne (h.eq_of_length_le hf.length_le)

lemma isFolder_of_node? (h : tree.node? place = some .folder) : tree.isFolder place = true := by
  unfold node? at h
  split at h
  · exact nomatch h
  · split at h
    · assumption
    · exact nomatch h

lemma follow_cons_eq_ok {name : Points} {rest : List Points} {target : Place} :
    tree.follow path place (name :: rest) = .ok target ↔
      tree.node? place = some .folder ∧
        ∃ next, enter path place name = .ok next ∧ tree.follow path next rest = .ok target := by
  rw [follow]
  cases hnode : tree.node? place with
  | none => exact iff_of_false (fun h => nomatch h) (fun h => nomatch h.1)
  | some node =>
    cases node with
    | file => exact iff_of_false (fun h => nomatch h) (fun h => nomatch h.1)
    | folder =>
      have hstep : (if name = [] ∨ name = here then tree.follow path place rest
          else if name = above then tree.follow path place.dropLast rest
          else if total CodePoint.size name > longestName then
            throw (.file (.nameTooLong path))
          else tree.follow path (place ++ [name]) rest) =
          enter path place name >>= fun next => tree.follow path next rest := by
        unfold enter
        split_ifs <;> rfl
      rw [← bind_eq_ok_iff]
      exact ⟨fun h => ⟨rfl, hstep ▸ h⟩, fun h => hstep ▸ h.2⟩

lemma Rooted.follow {names : List Points} {target : Place} (hplace : tree.Rooted place)
    (h : tree.follow path place names = .ok target) : tree.Rooted target := by
  induction names generalizing place with
  | nil =>
    obtain rfl := Except.ok.inj h
    exact hplace
  | cons name rest ih =>
    obtain ⟨hnode, next, hnext, hrest⟩ := follow_cons_eq_ok.mp h
    have hfolder := isFolder_of_node? hnode
    refine ih ?_ hrest
    unfold enter at hnext
    split_ifs at hnext
    · obtain rfl := Except.ok.inj hnext
      exact hplace
    · obtain rfl := Except.ok.inj hnext
      intro folder hf _
      exact isFolder_of_prefix hfolder (hf.trans (List.dropLast_prefix place))
    · obtain rfl := Except.ok.inj hnext
      intro folder hf hne
      rcases List.prefix_concat_iff.mp hf with rfl | hf
      · exact absurd rfl hne
      · exact isFolder_of_prefix hfolder hf

lemma rooted_start : tree.Rooted (tree.start path).1 := by
  have hworking : tree.Rooted tree.workingPlace :=
    fun folder hf _ => isFolder_iff.mpr (.inl hf)
  have hroot : tree.Rooted [] := fun folder hf hne => absurd (List.prefix_nil.mp hf) hne
  unfold start
  dsimp only
  split_ifs
  · exact hworking
  · exact hworking
  · exact hroot
  · exact hworking

lemma locate_eq_ok : tree.locate path = .ok place ↔
    checkPath path = .ok () ∧
      tree.follow path (tree.start path).1 (tree.start path).2 = .ok place := by
  unfold locate
  rw [bind_eq_ok_iff]
  exact ⟨fun ⟨_, hcheck, h⟩ => ⟨hcheck, h⟩, fun ⟨hcheck, h⟩ => ⟨(), hcheck, h⟩⟩

/-- Trees with the same folders lead a walk to the same place. -/
lemma follow_congr {other : FileTree}
    (h : ∀ place, tree.node? place = some .folder ↔ other.node? place = some .folder)
    {names : List Points} {target : Place} :
    tree.follow path place names = .ok target ↔ other.follow path place names = .ok target := by
  induction names generalizing place with
  | nil => exact Iff.rfl
  | cons name rest ih =>
    rw [follow_cons_eq_ok, follow_cons_eq_ok, h]
    simp only [ih]

lemma read_eq_ok : tree.read path = .ok content ↔
    ∃ place, tree.locate path = .ok place ∧ tree.node? place = some (.file content) := by
  unfold read
  rw [bind_eq_ok_iff]
  apply exists_congr
  intro place
  apply and_congr_right
  intro _
  split
  · next found hnode =>
    rw [hnode]
    exact ⟨fun h => congrArg (some ∘ Node.file) (Except.ok.inj h),
      fun h => congrArg Except.ok (Node.file.inj (Option.some.inj h))⟩
  · next hnode =>
    rw [hnode]
    exact iff_of_false (fun h => nomatch h) (fun h => nomatch h)
  · next hnode =>
    rw [hnode]
    exact iff_of_false (fun h => nomatch h) (fun h => nomatch h)

lemma lookup_filter_ne {files : List (Place × Bytes)} {other : Place} (h : other ≠ place) :
    (files.filter (·.1 != place)).lookup other = files.lookup other := by
  induction files with
  | nil => rfl
  | cons file rest ih =>
    by_cases hfile : file.1 = place
    · have hdropped : (file.1 != place) = false := by rw [hfile, bne_self_eq_false]
      have hother : (other == file.1) = false := by
        rw [hfile]
        exact beq_eq_false_iff_ne.mpr h
      rw [List.filter_cons, hdropped, List.lookup_cons, hother]
      exact ih
    · have hkept : (file.1 != place) = true := bne_iff_ne.mpr hfile
      rw [List.filter_cons, hkept, if_pos rfl, List.lookup_cons, List.lookup_cons, ih]

namespace Stores

variable (h : tree.Stores place content after)
include h

lemma node?_self : after.node? place = some (.file content) := by
  rw [h.eq, node?, List.lookup_cons_self]

lemma isFolder_eq {other : Place} (hne : other ≠ place) :
    after.isFolder other = tree.isFolder other := by
  obtain ⟨hrooted, -, rfl⟩ := h
  rw [Bool.eq_iff_iff]
  constructor
  · intro hfolder
    rcases isFolder_iff.mp hfolder with hw | hl | ⟨file, hfile, hprefix, hother⟩
    · exact isFolder_iff.mpr (.inl hw)
    · exact isFolder_iff.mpr (.inr (.inl hl))
    · rcases List.mem_cons.mp hfile with rfl | hfile
      · exact hrooted other hprefix hne
      · exact isFolder_iff.mpr
          (.inr (.inr ⟨file, (List.mem_filter.mp hfile).1, hprefix, hother⟩))
  · intro hfolder
    apply isFolder_iff.mpr
    rcases isFolder_iff.mp hfolder with hw | hl | ⟨file, hfile, hprefix, hother⟩
    · exact .inl hw
    · exact .inr (.inl hl)
    · by_cases hplace : file.1 = place
      · exact .inr (.inr ⟨(place, content), List.mem_cons_self, hplace ▸ hprefix, hne⟩)
      · have hkept : file ∈ tree.files.filter (·.1 != place) :=
          List.mem_filter.mpr ⟨hfile, bne_iff_ne.mpr hplace⟩
        exact .inr (.inr ⟨file, List.mem_cons_of_mem _ hkept, hprefix, hother⟩)

lemma node?_other {other : Place} (hne : other ≠ place) : after.node? other = tree.node? other := by
  have hfolder := h.isFolder_eq hne
  have hlookup : after.files.lookup other = tree.files.lookup other := by
    rw [h.eq, List.lookup_cons, beq_eq_false_iff_ne.mpr hne]
    exact lookup_filter_ne hne
  rw [node?, node?, hlookup, hfolder]

lemma node?_eq_folder_iff (other : Place) :
    after.node? other = some .folder ↔ tree.node? other = some .folder := by
  by_cases hne : other = place
  · rw [hne, h.node?_self]
    exact iff_of_false (fun h => nomatch h) h.free
  · rw [h.node?_other hne]

lemma locate_eq_ok_iff {other : Place} :
    after.locate path = .ok other ↔ tree.locate path = .ok other := by
  have hstart : after.start path = tree.start path := by
    rw [h.eq]
    rfl
  rw [locate_eq_ok, locate_eq_ok, hstart, follow_congr h.node?_eq_folder_iff]

lemma read_other {kept : Bytes} (hne : tree.locate path ≠ .ok place)
    (hread : tree.read path = .ok kept) : after.read path = .ok kept := by
  obtain ⟨other, hlocate, hnode⟩ := read_eq_ok.mp hread
  have hother : other ≠ place := by
    rintro rfl
    exact hne hlocate
  apply read_eq_ok.mpr
  exact ⟨other, h.locate_eq_ok_iff.mpr hlocate, by rw [h.node?_other hother, hnode]⟩

lemma read_self (hlocate : tree.locate path = .ok place) : after.read path = .ok content :=
  read_eq_ok.mpr ⟨place, h.locate_eq_ok_iff.mpr hlocate, h.node?_self⟩

end Stores

lemma stores_of_write (h : tree.write path content = .ok after) :
    ∃ place, tree.locate path = .ok place ∧ tree.Stores place content after := by
  unfold write at h
  obtain ⟨_, hcheck, h⟩ := (bind_eq_ok_iff _ _ _).mp h
  dsimp only at h
  split_ifs at h with hslash
  · obtain ⟨-, -, h⟩ := (bind_eq_ok_iff _ _ _).mp h
    exact nomatch h
  · obtain ⟨place, hfollow, h⟩ := (bind_eq_ok_iff _ _ _).mp h
    split_ifs at h with hfolder
    · exact nomatch h
    · have hlocate : tree.locate path = .ok place := locate_eq_ok.mpr ⟨hcheck, hfollow⟩
      exact ⟨place, hlocate, rooted_start.follow hfollow, hfolder, (Except.ok.inj h).symm⟩

lemma toList_loop (bytes : ByteArray) (start : Nat) (before : List UInt8) :
    ByteArray.toList.loop bytes start before =
      before.reverse ++ bytes.data.toList.drop start := by
  fun_induction ByteArray.toList.loop bytes start before with
  | case1 start before hlt ih =>
    have hstart : start < bytes.data.toList.length := by simpa using hlt
    have hbyte : bytes.get! start = bytes.data.toList[start] := by simp [ByteArray.get!, hlt]
    rw [ih, List.drop_eq_getElem_cons hstart, hbyte, List.reverse_cons, List.append_assoc,
      List.singleton_append]
  | case2 start before hle =>
    have hend : bytes.data.toList.length ≤ start := by simpa using not_lt.mp hle
    rw [List.drop_eq_nil_of_le hend, List.append_nil]

lemma writeText_eq (tree : FileTree) (path : Points) (text : String) :
    tree.writeText path text = tree.write path text.toUTF8.data.toList := by
  rw [writeText, ByteArray.toList, toList_loop, List.reverse_nil, List.nil_append, List.drop_zero]

end Chiptune.FileTree
