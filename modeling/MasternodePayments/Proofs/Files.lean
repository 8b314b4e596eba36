import MasternodePayments.Tool.Basic

/-!
# Files

Where a path leads, and what the files of a disk hold after a change. A file is replaced by way of a
temporary one: `Disk.content_replace` says what is then where, for every path. The temporary file is
never a snapshot file itself (`Disk.place_ne_temporary`), whatever directories are given and however
they are written.
-/

namespace MasternodePayments.Tool.Disk

/-! ## The place of a file -/

theorem parts_of_not_mem {name : String} (hname : '/' ∉ name.toList) : parts name = [name] := by
  simp [parts, List.splitOn_eq_singleton hname]

theorem parts_append (directory : String) {name : String} (hname : '/' ∉ name.toList) :
    parts (directory ++ "/" ++ name) = parts directory ++ [name] := by
  have hlist : (directory ++ "/" ++ name).toList = directory.toList ++ '/' :: name.toList := by simp
  rw [parts, hlist, List.splitOn_append_cons_self, List.map_append]
  exact congrArg _ (parts_of_not_mem hname)

/-- However a directory is written, the path of a file in it ends in the name of the file. -/
theorem exists_parts_joinPath (directory : String) {name : String} (hname : '/' ∉ name.toList) :
    ∃ before, parts (joinPath directory name) = before ++ [name] := by
  unfold joinPath
  split
  · exact ⟨[], parts_of_not_mem hname⟩
  split
  · next hslash =>
    obtain ⟨front, hfront⟩ := List.getLast?_eq_some_iff.1 hslash
    have hdirectory : directory = String.ofList front ++ "/" := by
      rw [← String.toList_inj]
      simpa using hfront
    rw [hdirectory]
    exact ⟨_, parts_append _ hname⟩
  · exact ⟨_, parts_append _ hname⟩

theorem getLast?_place_joinPath (d : Disk) (directory : String) {name : String}
    (hname : '/' ∉ name.toList) (hproper : name ∉ ["", ".", ".."]) :
    (d.place (joinPath directory name)).getLast? = some name := by
  obtain ⟨before, hparts⟩ := exists_parts_joinPath directory hname
  have hdescend : ∀ place, descend place name = place ++ [name] := by simp_all [descend]
  simp only [place, hparts]
  split <;> simp [List.foldl_append, hdescend]

theorem temporaryPath_joinPath (directory name : String) :
    temporaryPath (joinPath directory name) = joinPath directory (temporaryPath name) := by
  unfold joinPath temporaryPath
  split
  · rfl
  split <;> simp only [String.append_assoc]

/-- No snapshot file is a temporary file, whatever the directories of the two. -/
theorem place_ne_temporary (d : Disk) (directory other : String) :
    d.place (joinPath directory fileName) ≠ d.place (temporaryPath (joinPath other fileName)) := by
  intro h
  have hfile : (d.place (joinPath directory fileName)).getLast? = some fileName :=
    d.getLast?_place_joinPath directory (by decide) (by decide)
  have htemporary : (d.place (temporaryPath (joinPath other fileName))).getLast? =
      some (temporaryPath fileName) := by
    rw [temporaryPath_joinPath]
    exact d.getLast?_place_joinPath other (by decide) (by decide)
  rw [h, htemporary] at hfile
  exact absurd hfile (by decide)

/-! ## What a change leaves -/

theorem content_write (d : Disk) (path : String) (b : Bytes) (other : String) :
    (d.write path b).content other =
      if d.place path = d.place other then some b else d.content other := by
  show (d.files.insert (d.place path) b)[d.place other]? = _
  simp only [Std.ExtTreeMap.getElem?_insert, Std.compare_eq_iff_eq, content]

@[simp] theorem content_write_self (d : Disk) (path : String) (b : Bytes) :
    (d.write path b).content path = some b := by
  rw [content_write, if_pos rfl]

theorem replace_eq (d : Disk) (path : String) (b : Bytes) : d.replace path b =
    { d with files := ((d.files.insert (d.place (temporaryPath path)) b).erase
        (d.place (temporaryPath path))).insert (d.place path) b } := by
  rw [replace, rename, content_write_self]
  rfl

@[simp] theorem workingDirectory_replace (d : Disk) (path : String) (b : Bytes) :
    (d.replace path b).workingDirectory = d.workingDirectory := by
  rw [replace_eq]

@[simp] theorem place_replace (d : Disk) (path : String) (b : Bytes) (other : String) :
    (d.replace path b).place other = d.place other := by
  simp only [place, workingDirectory_replace]

/-- What replacing a file does: it holds the content, and there is no temporary file any more. -/
theorem files_replace (d : Disk) (path : String) (b : Bytes) (place : List String) :
    (d.replace path b).files[place]? =
      if d.place path = place then some b
      else if d.place (temporaryPath path) = place then none
      else d.files[place]? := by
  rw [replace_eq]
  simp only [Std.ExtTreeMap.getElem?_insert, Std.ExtTreeMap.getElem?_erase, Std.compare_eq_iff_eq]
  split
  · rfl
  · split <;> rfl

theorem content_replace (d : Disk) (path : String) (b : Bytes) (other : String) :
    (d.replace path b).content other =
      if d.place path = d.place other then some b
      else if d.place (temporaryPath path) = d.place other then none
      else d.content other := by
  rw [content, place_replace, files_replace]
  rfl

@[simp] theorem content_replace_self (d : Disk) (path : String) (b : Bytes) :
    (d.replace path b).content path = some b := by
  rw [content_replace, if_pos rfl]

theorem content_replace_temporary (d : Disk) (directory : String) (b : Bytes) :
    (d.replace (joinPath directory fileName) b).content
      (temporaryPath (joinPath directory fileName)) = none := by
  rw [content_replace, if_neg (d.place_ne_temporary directory directory), if_pos rfl]

@[simp] theorem replace_replace (d : Disk) (path : String) (b : Bytes) :
    (d.replace path b).replace path b = d.replace path b := by
  refine Disk.ext (workingDirectory_replace _ _ _) (Std.ExtTreeMap.ext_getElem? fun place => ?_)
  simp only [files_replace, place_replace]
  split
  · rfl
  · split <;> rfl

end MasternodePayments.Tool.Disk
