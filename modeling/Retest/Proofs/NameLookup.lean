import Retest.Proofs.ClassReading
import Retest.Proofs.FileMap

/-! Where the class of a name is looked for. A name becomes a path below a root, dots turned into
slashes, so one that begins with a dot becomes an absolute path, and the root has no say in it. -/

namespace Retest

/-- What a relative path leads to from a root is under that root. -/
theorem Path.isUnder_join (root : Path) (tail : String) (h : tail.toList.head? ≠ some '/') :
    (root.join tail).isUnder root = true := by
  rw [isUnder, List.isPrefixOf_iff_prefix]
  by_cases hroot : root.text.toList = []
  · have hnone : root.components = [] := by
      rw [components_eq, isAbsolute, hroot]
      rfl
    rw [hnone]
    exact List.nil_prefix
  · rw [components_join_relative root tail hroot h]
    exact List.prefix_append _ _

namespace ClassFile

variable {tree : FileTree} {roots : List Path} {name : String}

/-- The path of a name is absolute if the name begins with a dot, or with a slash. -/
theorem head_relativePath (name : String) : (relativePath name).toList.head? = some '/' ↔
    name.toList.head? = some '.' ∨ name.toList.head? = some '/' := by
  rw [relativePath, String.toList_append, String.toList_ofList]
  cases name.toList with
  | nil => decide
  | cons c l =>
    rw [List.map_cons, List.cons_append, List.head?_cons, List.head?_cons]
    by_cases hc : c = '.' <;> simp [hc]

theorem not_mem_slash_binaryName (s : List Char) : '/' ∉ (binaryName s).toList := by
  rw [binaryName, String.toList_ofList, List.mem_map]
  rintro ⟨c, -, hc⟩
  split at hc
  · exact absurd hc (by decide)
  · next hne => exact hne hc

/-- The name of a class that was read from a file has no slash. -/
theorem not_mem_slash_of_parsed {path : Path} (h : (parseFile tree path).isUnparsable = false) :
    '/' ∉ (parseFile tree path).name.toList := by
  obtain ⟨bytes, header, rest, -, hheader, hparse⟩ := Disk.read_of_parse tree path h
  obtain ⟨head, ⟨f, -, -, hmakes⟩, -⟩ := reads_header.gives _ header rest hheader
  obtain ⟨text, -, hname⟩ := hmakes.name
  have hclass : (parseFile tree path).name = binaryName text := by rw [hparse, ← hname]; rfl
  rw [hclass]
  exact not_mem_slash_binaryName text

/-- The file of a class that was found by its name is where some root and the name lead, and the
name has no slash. -/
theorem exists_root_of_file {file : Path} (h : (resolve tree roots name).file = some file) :
    (∃ root ∈ roots, root.join (relativePath name) = file) ∧ '/' ∉ name.toList := by
  rcases Disk.resolve_cases tree roots name with hnone | ⟨path, hlocate, hparsed, hresolve⟩
  · rw [hnone] at h
    cases h
  · have hname := name_resolve tree roots name
    rw [hresolve] at h hname
    obtain ⟨bytes, header, rest, -, -, hparse⟩ := Disk.read_of_parse tree path hparsed
    have hfile : path = file := by
      rw [hparse] at h
      exact Option.some.inj h
    rw [← hfile, ← hname]
    refine ⟨?_, not_mem_slash_of_parsed hparsed⟩
    rw [hname]
    exact List.mem_map.mp (List.mem_of_find?_eq_some hlocate)

/-- A name is always resolved to a readable class of that name. The file that the class comes from,
if there is one, lies under one of the roots exactly if the name does not begin with a dot, or the
absolute path that it spells then happens to lie under one; it is that path whatever the roots
are. -/
theorem resolved_under_root_iff (tree : FileTree) (roots : List Path) (name : String) :
    (resolve tree roots name).name = name ∧ (resolve tree roots name).isUnparsable = false ∧
      ∀ file, (resolve tree roots name).file = some file →
        ((∃ root ∈ roots, file.isUnder root = true) ↔ name.toList.head? ≠ some '.' ∨
          ∃ root ∈ roots, (⟨relativePath name⟩ : Path).isUnder root = true) ∧
        (name.toList.head? = some '.' → file = ⟨relativePath name⟩ ∧ file.isAbsolute = true) := by
  refine ⟨name_resolve tree roots name, (Disk.ofTree tree roots).readable name, ?_⟩
  intro file hfile
  obtain ⟨⟨root, hroot, hjoin⟩, hslash⟩ := exists_root_of_file hfile
  have hnoSlash : name.toList.head? ≠ some '/' :=
    fun hhead => hslash (List.mem_of_mem_head? (Option.mem_def.mpr hhead))
  have habsolute := head_relativePath name
  by_cases hdot : name.toList.head? = some '.'
  · have hhead := habsolute.mpr (Or.inl hdot)
    have hplace : file = ⟨relativePath name⟩ := by rw [← hjoin, Path.join, if_pos hhead]
    refine ⟨?_, fun _ => ⟨hplace, ?_⟩⟩
    · rw [hplace]
      exact ⟨Or.inr, fun h => h.resolve_left (not_not.mpr hdot)⟩
    · rw [hplace, Path.isAbsolute, hhead]
      rfl
  · have hrelative : (relativePath name).toList.head? ≠ some '/' :=
      fun hhead => (habsolute.mp hhead).elim hdot hnoSlash
    refine ⟨⟨fun _ => Or.inl hdot, fun _ => ⟨root, hroot, ?_⟩⟩, fun h => absurd h hdot⟩
    rw [← hjoin]
    exact root.isUnder_join _ hrelative

end ClassFile

namespace Lookup

def classFile (name : String) : List UInt8 :=
  [0xCA, 0xFE, 0xBA, 0xBE, 0, 0, 0, 52, 0, 3, 1, 0, name.utf8ByteSize.toUInt8] ++
    Utf8.encodeString name ++ [7, 0, 1, 0, 0x21, 0, 2, 0, 0]

def tree : FileTree where
  root := .directory [("w", .directory [("c", .directory [("p", .directory
      [("A.class", .file (classFile "p/A") default)])])]),
    ("tmp", .directory [("elsewhere", .directory
      [("X.class", .file (classFile "/tmp/elsewhere/X") default)])])]
  workingDir := ["w"]

end Lookup

namespace ClassFile

/-- A class whose name has a package is found below the root. -/
theorem packaged_class_is_under_root :
    (resolve Lookup.tree [⟨"c"⟩] "p.A").file = some ⟨"c/p/A.class"⟩ ∧
      ∃ root ∈ [(⟨"c"⟩ : Path)], (⟨"c/p/A.class"⟩ : Path).isUnder root = true := by
  have hfile : (resolve Lookup.tree [⟨"c"⟩] "p.A").file = some ⟨"c/p/A.class"⟩ := by decide +kernel
  obtain ⟨-, -, hunder⟩ := resolved_under_root_iff Lookup.tree [⟨"c"⟩] "p.A"
  exact ⟨hfile, (hunder _ hfile).1.mpr (Or.inl (by decide))⟩

/-- A class whose name begins with a dot is found at the absolute path that its name spells, which
is not below the root. -/
theorem dotted_class_is_elsewhere :
    (resolve Lookup.tree [⟨"c"⟩] ".tmp.elsewhere.X").file = some ⟨"/tmp/elsewhere/X.class"⟩ ∧
      ¬∃ root ∈ [(⟨"c"⟩ : Path)], (⟨"/tmp/elsewhere/X.class"⟩ : Path).isUnder root = true := by
  refine ⟨?_, ?_⟩
  · decide +kernel
  · decide

end ClassFile

end Retest
