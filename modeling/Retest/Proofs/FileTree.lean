import Retest.Proofs.PathJoin
import Retest.Proofs.PathOrder
import Retest.Select.Watchlist

/-! Where paths lead in a tidy tree. A path that can be followed leads along the names that its
components spell, so all spellings of one path lead to one node. -/

namespace Retest

def Component.enter (here : List String) : Component → List String
  | .root => []
  | .current => here
  | .parent => here.tail
  | .normal name => name :: here

def Component.Short : Component → Prop
  | .root | .current | .parent => True
  | .normal name => name.utf8ByteSize ≤ FileTree.nameLimit

namespace FileNode

mutual

/-- In each directory the entries have different names, and all names can stand in a path. -/
def Tidy : FileNode → Prop
  | .file .. => True
  | .directory entries => (entries.map (·.1)).Nodup ∧ TidyEntries entries

def TidyEntries : List (String × FileNode) → Prop
  | [] => True
  | (name, node) :: rest => Path.IsName name ∧ node.Tidy ∧ TidyEntries rest

end

theorem tidy_file (data : List UInt8) (modified : Timestamp) : (file data modified).Tidy := trivial

theorem tidy_nil : (directory []).Tidy := ⟨List.nodup_nil, trivial⟩

theorem tidy_of_mem (entries : List (String × FileNode)) (h : TidyEntries entries)
    (e : String × FileNode) (he : e ∈ entries) : Path.IsName e.1 ∧ e.2.Tidy := by
  induction entries with
  | nil => exact absurd he List.not_mem_nil
  | cons d rest ih =>
    obtain ⟨name, node⟩ := d
    obtain ⟨hname, hnode, hrest⟩ := h
    rcases List.mem_cons.mp he with rfl | he
    · exact ⟨hname, hnode⟩
    · exact ih hrest he

theorem child_of_mem (entries : List (String × FileNode)) (h : (entries.map (·.1)).Nodup)
    (e : String × FileNode) (he : e ∈ entries) :
    (FileNode.directory entries).child? e.1 = some e.2 := by
  have hfind : entries.find? (fun d => d.1 = e.1) = some e := by
    induction entries with
    | nil => exact absurd he List.not_mem_nil
    | cons d rest ih =>
      obtain ⟨hd, hrest⟩ := List.nodup_cons.mp h
      rcases List.mem_cons.mp he with rfl | he
      · simp
      · have hne : d.1 ≠ e.1 := by
          intro heq
          exact hd (List.mem_map.mpr ⟨e, he, heq.symm⟩)
        rw [List.find?_cons_of_neg (by simpa using hne)]
        exact ih hrest he
  change (entries.find? fun d => d.1 = e.1).map (·.2) = some e.2
  rw [hfind]
  rfl

theorem mem_of_child (n c : FileNode) (name : String) (h : n.child? name = some c) :
    ∃ es, n = directory es ∧ (name, c) ∈ es := by
  obtain ⟨e, he, rfl⟩ := Option.map_eq_some_iff.mp h
  cases n with
  | file data modified => simp [entries] at he
  | directory es =>
    have hname : e.1 = name := by simpa using List.find?_some he
    exact ⟨es, rfl, hname ▸ List.mem_of_find?_eq_some he⟩

theorem tidy_child (n c : FileNode) (hn : n.Tidy) (name : String) (h : n.child? name = some c) :
    Path.IsName name ∧ c.Tidy := by
  obtain ⟨es, rfl, hm⟩ := mem_of_child n c name h
  exact tidy_of_mem es hn.2 (name, c) hm

theorem descend_append (n : FileNode) (l m : List String) :
    n.descend (l ++ m) = (n.descend l).bind fun c => c.descend m := by
  induction l generalizing n with
  | nil => rfl
  | cons name l ih =>
    rw [List.cons_append, descend, descend, Option.bind_assoc]
    congr 1
    funext c
    exact ih c

theorem tidy_descend (n m : FileNode) (hn : n.Tidy) (names : List String)
    (h : n.descend names = some m) : m.Tidy := by
  induction names generalizing n with
  | nil =>
    rw [← Option.some.inj h]
    exact hn
  | cons name names ih =>
    obtain ⟨c, hc, hm⟩ := Option.bind_eq_some_iff.mp h
    exact ih c (tidy_child n c hn name hc).2 hm

theorem isName_of_descend (n m : FileNode) (hn : n.Tidy) (names : List String)
    (h : n.descend names = some m) : ∀ name ∈ names, Path.IsName name := by
  induction names generalizing n with
  | nil => exact fun name hname => absurd hname List.not_mem_nil
  | cons first names ih =>
    obtain ⟨c, hc, hm⟩ := Option.bind_eq_some_iff.mp h
    obtain ⟨hfirst, hrest⟩ := tidy_child n c hn first hc
    exact List.forall_mem_cons.mpr ⟨hfirst, ih c hrest hm⟩

theorem sizeOf_child_lt (n c : FileNode) (name : String) (h : n.child? name = some c) :
    sizeOf c < sizeOf n := by
  obtain ⟨es, rfl, hm⟩ := mem_of_child n c name h
  have hlist := List.sizeOf_lt_of_mem hm
  calc sizeOf c
      < sizeOf (name, c) := by
        rw [Prod.mk.sizeOf_spec]
        omega
    _ < sizeOf es := hlist
    _ < sizeOf (directory es) := by simp

theorem tidyEntries_iff (entries : List (String × FileNode)) :
    TidyEntries entries ↔ ∀ e ∈ entries, Path.IsName e.1 ∧ e.2.Tidy := by
  refine ⟨fun h e he => tidy_of_mem entries h e he, ?_⟩
  intro h
  induction entries with
  | nil => trivial
  | cons e rest ih =>
    obtain ⟨hname, hnode⟩ := h e List.mem_cons_self
    exact ⟨hname, hnode, ih fun d hd => h d (List.mem_cons_of_mem e hd)⟩

theorem mem_setEntry (name : String) (node : FileNode) (entries : List (String × FileNode))
    (e : String × FileNode) (h : e ∈ setEntry name node entries) :
    e = (name, node) ∨ e ∈ entries := by
  induction entries with
  | nil => exact Or.inl (List.mem_singleton.mp h)
  | cons d rest ih =>
    rw [setEntry] at h
    split at h
    · exact (List.mem_cons.mp h).imp id (List.mem_cons_of_mem d)
    · rcases List.mem_cons.mp h with rfl | h
      · exact Or.inr List.mem_cons_self
      · exact (ih h).imp id (List.mem_cons_of_mem d)

theorem nodup_setEntry (name : String) (node : FileNode) (entries : List (String × FileNode))
    (h : (entries.map (·.1)).Nodup) : ((setEntry name node entries).map (·.1)).Nodup := by
  induction entries with
  | nil => simp [setEntry]
  | cons d rest ih =>
    obtain ⟨hd, hrest⟩ := List.nodup_cons.mp h
    rw [setEntry]
    split
    · next hname =>
      rw [List.map_cons]
      exact List.nodup_cons.mpr ⟨by rw [← hname]; exact hd, hrest⟩
    · next hname =>
      rw [List.map_cons]
      refine List.nodup_cons.mpr ⟨?_, ih hrest⟩
      intro hm
      obtain ⟨e, he, heq⟩ := List.mem_map.mp hm
      rcases mem_setEntry name node rest e he with rfl | he
      · exact hname heq.symm
      · exact hd (List.mem_map.mpr ⟨e, he, heq⟩)

/-- Putting a tidy node under a name that can stand in a path keeps a tree tidy. -/
theorem tidy_place (node n : FileNode) (hnode : node.Tidy) (names : List String)
    (hnames : ∀ name ∈ names, Path.IsName name) (hn : n.Tidy) : (place node names n).Tidy := by
  induction names generalizing n with
  | nil => exact hnode
  | cons name rest ih =>
    cases n with
    | file data modified => exact hn
    | directory es =>
      obtain ⟨hnodup, htidy⟩ := hn
      -- The node goes below the entry of that name, or below a new directory.
      have hbelow : (((es.find? fun e => e.1 = name).map Prod.snd).getD
          (FileNode.directory [])).Tidy := by
        cases hf : es.find? fun e => e.1 = name with
        | none => exact tidy_nil
        | some e => exact (tidy_of_mem es htidy e (List.mem_of_find?_eq_some hf)).2
      have hplaced := ih _ (fun a ha => hnames a (List.mem_cons_of_mem name ha)) hbelow
      refine ⟨nodup_setEntry name _ es hnodup, (tidyEntries_iff _).mpr ?_⟩
      intro e he
      rcases mem_setEntry name _ es e he with rfl | he
      · exact ⟨hnames name List.mem_cons_self, hplaced⟩
      · exact tidy_of_mem es htidy e he

theorem tidy_remove (names : List String) (n : FileNode) (hn : n.Tidy) : (remove names n).Tidy := by
  induction names generalizing n with
  | nil => exact hn
  | cons name rest ih =>
    cases n with
    | file data modified => cases rest <;> exact hn
    | directory es =>
      obtain ⟨hnodup, htidy⟩ := hn
      cases rest with
      | nil =>
        refine ⟨hnodup.sublist (List.filter_sublist.map _), (tidyEntries_iff _).mpr ?_⟩
        exact fun e he => tidy_of_mem es htidy e (List.mem_filter.mp he).1
      | cons name' rest =>
        have hkeys : (es.map fun e =>
            if e.1 = name then (e.1, remove (name' :: rest) e.2) else e).map
            (·.1) = es.map (·.1) := by
          rw [List.map_map]
          refine List.map_congr_left fun e _ => ?_
          by_cases hname : e.1 = name <;> simp [hname]
        refine ⟨hkeys ▸ hnodup, (tidyEntries_iff _).mpr ?_⟩
        intro e he
        obtain ⟨d, hd, rfl⟩ := List.mem_map.mp he
        obtain ⟨hdname, hdnode⟩ := tidy_of_mem es htidy d hd
        by_cases hname : d.1 = name
        · simp only [hname, if_true]
          exact ⟨hname ▸ hdname, ih d.2 hdnode⟩
        · simp only [hname, if_false]
          exact ⟨hdname, hdnode⟩

end FileNode

namespace FileTree

variable (t : FileTree) (p : Path)

theorem spelledNames_eq_foldl : t.spelledNames p = (((Path.pieces p.text.toList).filterMap
    Path.component?).foldl Component.enter
      (if p.isAbsolute then [] else t.workingDir.reverse)).reverse := by
  have hstep (l : List (List Char)) (here : List String) :
      l.foldl (fun here piece =>
          if piece = [] ∨ piece = ['.'] then here
          else if piece = ['.', '.'] then here.tail
          else String.ofList piece :: here) here =
        (l.filterMap Path.component?).foldl Component.enter here := by
    induction l generalizing here with
    | nil => rfl
    | cons piece l ih =>
      rw [List.foldl_cons, ih]
      by_cases h1 : piece = [] ∨ piece = ['.']
      · simp [Path.component?, h1]
      · by_cases h2 : piece = ['.', '.']
        · simp [Path.component?, h2, Component.enter]
        · simp [Path.component?, h1, h2, Component.enter]
  rw [spelledNames, hstep]

/-- The names that a path spells are those that its components lead along. -/
theorem spelledNames_eq :
    t.spelledNames p = (p.components.foldl Component.enter t.workingDir.reverse).reverse := by
  rw [spelledNames_eq_foldl, Path.components_eq]
  congr 1
  cases hp : Path.pieces p.text.toList with
  | nil => exact absurd hp (Path.pieces_ne_nil _)
  | cons head rest =>
    by_cases ha : p.isAbsolute = true
    · have hhead : head = [] := by
        obtain ⟨rest', hp'⟩ := Path.pieces_of_isAbsolute p ha
        exact (List.cons.inj (hp.symm.trans hp')).1
      simp [Path.componentsOf, ha, hhead, Path.component?, Component.enter]
    · by_cases hdot : head = ['.']
      · simp [Path.componentsOf, ha, hdot, Path.component?, Component.enter]
      · cases hc : Path.component? head <;>
          simp [Path.componentsOf, ha, hdot, hc]

/-- Two spellings of one path spell the same names. -/
theorem spelledNames_congr (q : Path) (h : compare p q = .eq) :
    t.spelledNames p = t.spelledNames q := by
  rw [spelledNames_eq, spelledNames_eq, (Path.compare_eq_iff p q).mp h]

def start : List String := if p.isAbsolute then [] else t.workingDir.reverse

def HoldsDir (here : List String) : Prop :=
  ∃ es, t.root.descend here.reverse = some (.directory es)

theorem descend_parent (here : List String) (h : t.HoldsDir here) :
    (t.root.descend here.tail.reverse).isSome = true := by
  obtain ⟨es, hes⟩ := h
  cases here with
  | nil => exact Option.isSome_of_eq_some hes
  | cons name here =>
    rw [List.reverse_cons, FileNode.descend_append] at hes
    obtain ⟨n, hn, -⟩ := Option.bind_eq_some_iff.mp hes
    exact Option.isSome_of_eq_some hn

theorem descend_child (here : List String) (n : FileNode) (name : String)
    (h : t.root.descend here.reverse = some n) :
    t.root.descend (name :: here).reverse = n.child? name := by
  rw [List.reverse_cons, FileNode.descend_append, h]
  change (n.child? name).bind some = n.child? name
  cases n.child? name <;> rfl

/-- One step of following: a piece asks for a directory, and if it stands for a component, for what
that leads to. -/
theorem follow_cons_iff (here : List String) (piece : List Char) (rest : List (List Char))
    (names : List String) : t.follow here (piece :: rest) = .ok names ↔ t.HoldsDir here ∧
      ((Path.component? piece = none ∧ t.follow here rest = .ok names) ∨
        ∃ c, Path.component? piece = some c ∧ c.Short ∧
          (t.root.descend (c.enter here).reverse).isSome = true ∧
            t.follow (c.enter here) rest = .ok names) := by
  rw [follow]
  cases hd : t.root.descend here.reverse with
  | none => simp [HoldsDir, hd]
  | some node =>
    cases node with
    | file data modified => simp [HoldsDir, hd, FileNode.isFile, FileNode.isDirectory]
    | directory es =>
      have hdir : t.HoldsDir here := ⟨es, hd⟩
      simp only [FileNode.isFile, FileNode.isDirectory, Bool.not_true, Bool.false_eq_true, if_false,
        hdir, true_and]
      by_cases h1 : piece = [] ∨ piece = ['.']
      · simp [Path.component?, h1]
      by_cases h2 : piece = ['.', '.']
      · simp [Path.component?, h2, Component.Short, Component.enter, t.descend_parent here hdir]
      have hchild := t.descend_child here (.directory es) (String.ofList piece) hd
      have hc : Path.component? piece = some (.normal (String.ofList piece)) := by
        rw [Path.component?, if_neg h1, if_neg h2]
      simp only [h1, h2, if_false, hc, reduceCtorEq, false_and, false_or, Option.some.injEq,
        exists_eq_left', Component.Short, Component.enter, hchild]
      by_cases hlong : nameLimit < (String.ofList piece).utf8ByteSize
      · simp [hlong, Nat.not_le_of_lt hlong]
      · rw [if_neg hlong]
        cases (FileNode.directory es).child? (String.ofList piece) <;>
          simp [Nat.le_of_not_lt hlong]

/-- Pieces are followed along the names that their components lead along. -/
theorem follow_eq (l : List (List Char)) (here names : List String)
    (h : t.follow here l = .ok names) :
    names = (l.filterMap Path.component?).foldl Component.enter here := by
  induction l generalizing here with
  | nil => exact (Except.ok.inj h).symm
  | cons piece l ih =>
    obtain ⟨-, ⟨hnone, hrest⟩ | ⟨c, hc, -, -, hrest⟩⟩ := (t.follow_cons_iff here piece l names).mp h
    · rw [List.filterMap_cons_none hnone]
      exact ih here hrest
    · rw [List.filterMap_cons_some hc]
      exact ih (c.enter here) hrest

/-- Only a text that can stand for a path is followed at all. -/
theorem locate_ok_iff (names : List String) : t.locate p = .ok names ↔
    p.text.toList ≠ [] ∧ '\x00' ∉ p.text.toList ∧ fits p = true ∧
      t.follow (t.start p) (Path.pieces p.text.toList) = .ok names.reverse := by
  have hmap (r : Except FileError (List String)) :
      r.map List.reverse = .ok names ↔ r = .ok names.reverse := by
    cases r with
    | error e => simp [Except.map]
    | ok back => simp [Except.map, List.reverse_eq_iff]
  rw [locate]
  by_cases htext : p.text.toList = []
  · simp [htext]
  rw [if_neg htext]
  by_cases hnul : '\x00' ∈ p.text.toList
  · simp [hnul]
  rw [if_neg (by simpa using hnul)]
  by_cases hsize : pathLimit ≤ p.text.utf8ByteSize
  · simp [hsize, fits, Nat.not_lt_of_le hsize]
  rw [if_neg hsize]
  have hfits : fits p = true := by simpa [fits] using hsize
  simp only [hmap, start, htext, hnul, hfits, ne_eq, not_false_eq_true, true_and]

/-- A path that can be followed leads along the names that it spells. -/
theorem locate_eq (names : List String) (h : t.locate p = .ok names) :
    p.text.toList ≠ [] ∧ names = t.spelledNames p := by
  obtain ⟨htext, -, -, hfollow⟩ := (t.locate_ok_iff p names).mp h
  refine ⟨htext, ?_⟩
  rw [spelledNames_eq_foldl, ← List.reverse_eq_iff]
  exact t.follow_eq _ _ _ hfollow

/-- What can be read is there. -/
theorem pathExists_of_read (bytes : List UInt8) (h : t.read p = .ok bytes) :
    t.pathExists p = true := by
  rw [read] at h
  rw [pathExists, node?]
  cases hl : t.locate p with
  | error e =>
    rw [hl] at h
    cases h
  | ok names =>
    simp only [hl] at h
    cases hn : t.root.descend names with
    | none =>
      rw [hn] at h
      cases h
    | some node => simp [hn]

theorem node_eq (n : FileNode) (h : t.node? p = some n) :
    p.text.toList ≠ [] ∧ t.root.descend (t.spelledNames p) = some n := by
  rw [node?] at h
  cases hl : t.locate p with
  | error x => simp [hl] at h
  | ok names =>
    obtain ⟨htext, hnames⟩ := locate_eq t p names hl
    simp only [hl] at h
    exact ⟨htext, hnames ▸ h⟩

theorem tidy_of_node (ht : t.root.Tidy) (n : FileNode) (h : t.node? p = some n) : n.Tidy :=
  FileNode.tidy_descend t.root n ht _ (t.node_eq p n h).2

/-- A tree whose files can all be reached by paths, and so can its working directory. -/
structure Tidy (t : FileTree) : Prop where
  root : t.root.Tidy
  workingDir : ∀ name ∈ t.workingDir, Path.IsName name

variable {t}

theorem isName_of_mem_spelledNames (ht : t.Tidy) (name : String) (h : name ∈ t.spelledNames p) :
    Path.IsName name := by
  have hfold (l : List Component) (here : List String)
      (hl : ∀ n, .normal n ∈ l → Path.IsName n) (hhere : ∀ n ∈ here, Path.IsName n) :
      ∀ n ∈ l.foldl Component.enter here, Path.IsName n := by
    induction l generalizing here with
    | nil => exact hhere
    | cons c l ih =>
      refine ih _ (fun n hn => hl n (List.mem_cons_of_mem c hn)) ?_
      intro n hn
      cases c with
      | root => exact absurd hn List.not_mem_nil
      | current => exact hhere n hn
      | parent => exact hhere n (List.mem_of_mem_tail hn)
      | normal m =>
        rcases List.mem_cons.mp hn with rfl | hn
        · exact hl n List.mem_cons_self
        · exact hhere n hn
  rw [spelledNames_eq_foldl, List.mem_reverse] at h
  refine hfold _ _ ?_ ?_ name h
  · intro n hn
    obtain ⟨piece, hpiece, hc⟩ := List.mem_filterMap.mp hn
    exact Path.isName_of_component piece (Path.not_mem_slash_of_mem_pieces _ piece hpiece) n hc
  · intro n hn
    split at hn
    · exact absurd hn List.not_mem_nil
    · exact ht.workingDir n (List.mem_reverse.mp hn)

/-- Whatever is written, made or taken away by its path leaves a tree tidy. -/
theorem tidy_writeFile (ht : t.Tidy) (data : List UInt8) (modified : Timestamp) :
    (t.writeFile p data modified).Tidy where
  root := FileNode.tidy_place _ _ (FileNode.tidy_file data modified) _
    (isName_of_mem_spelledNames p ht) ht.root
  workingDir := ht.workingDir

theorem tidy_makeDir (ht : t.Tidy) : (t.makeDir p).Tidy := by
  rw [makeDir]
  split
  · exact ht
  · exact ⟨FileNode.tidy_place _ _ FileNode.tidy_nil _ (isName_of_mem_spelledNames p ht)
      ht.root, ht.workingDir⟩

theorem tidy_remove (ht : t.Tidy) : (t.remove p).Tidy where
  root := FileNode.tidy_remove _ _ ht.root
  workingDir := ht.workingDir

theorem tidy_empty (workingDir : List String) (h : ∀ name ∈ workingDir, Path.IsName name) :
    (empty workingDir).Tidy where
  root := FileNode.tidy_place _ _ FileNode.tidy_nil _ h FileNode.tidy_nil
  workingDir := h

end FileTree

end Retest
