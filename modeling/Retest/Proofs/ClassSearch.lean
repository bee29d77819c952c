import Retest.Proofs.FileTree

namespace Retest

/-- A class file stands below a root, at the end of directories that bear names of packages. -/
def FileTree.HasClassFile (t : FileTree) (root : Path) (dirs : List String) (p : Path)
    (time : Timestamp) : Prop :=
  (∀ dir ∈ dirs, isPackageName dir = true) ∧ p.isClassFile = true ∧
    ∃ n name data, t.node? root = some n ∧ n.descend (dirs ++ [name]) = some (.file data time) ∧
      p = (root.below dirs).join name

/-- A class file stands below one of the roots, and every directory on the way to it can be
opened. -/
def Watchlist.Sees (w : Watchlist) (t : FileTree) (opens : Path → Bool) (p : Path)
    (time : Timestamp) : Prop :=
  ∃ root ∈ w.roots, ∃ dirs, t.HasClassFile root dirs p time ∧
    ∀ above, above <+: dirs → opens (root.below above) = true

namespace FileNode

variable (opens : Path → Bool)

theorem mem_classFilesIn (dir : Path) (es : List (String × FileNode)) (e : Path × Timestamp) :
    e ∈ classFilesIn opens dir es ↔ ∃ d ∈ es, e ∈ classFilesAt opens dir d.1 d.2 := by
  induction es with
  | nil => simp [classFilesIn]
  | cons d es ih => simp [classFilesIn, ih]

/-- One level of a scan: what it finds is a file of the directory, or was found further down. -/
theorem mem_classFiles_iff (dir : Path) (n : FileNode) (hn : n.Tidy) (e : Path × Timestamp) :
    e ∈ n.classFiles opens dir ↔ opens dir = true ∧ ∃ name c, n.child? name = some c ∧
      ((∃ data, c = .file data e.2 ∧ e.1 = dir.join name ∧ e.1.isClassFile = true) ∨
        (isPackageName name = true ∧ e ∈ c.classFiles opens (dir.join name))) := by
  -- What one entry holds, by the kind of its node.
  have hat (name : String) (c : FileNode) : e ∈ classFilesAt opens dir name c ↔
      (∃ data, c = .file data e.2 ∧ e.1 = dir.join name ∧ e.1.isClassFile = true) ∨
        (isPackageName name = true ∧ e ∈ c.classFiles opens (dir.join name)) := by
    obtain ⟨p, time⟩ := e
    cases c with
    | file data modified =>
      simp only [classFilesAt, classFiles, List.not_mem_nil, and_false, or_false, file.injEq]
      split
      · next hclass =>
        rw [List.mem_singleton, Prod.mk.injEq]
        constructor
        · rintro ⟨rfl, rfl⟩
          exact ⟨data, ⟨rfl, rfl⟩, rfl, hclass⟩
        · rintro ⟨-, ⟨-, rfl⟩, rfl, -⟩
          exact ⟨rfl, rfl⟩
      · next hclass =>
        refine ⟨fun hm => absurd hm List.not_mem_nil, ?_⟩
        rintro ⟨-, -, rfl, hp⟩
        exact absurd hp hclass
    | directory es =>
      cases hname : isPackageName name <;> cases hopens : opens (dir.join name) <;>
        simp [classFilesAt, classFiles, hname, hopens]
  cases n with
  | file data modified => simp [classFiles, child?, entries]
  | directory es =>
    cases hopens : opens dir with
    | false => simp [classFiles, hopens]
    | true =>
      rw [classFiles, if_pos hopens, mem_classFilesIn]
      constructor
      · rintro ⟨d, hd, he⟩
        exact ⟨rfl, d.1, d.2, child_of_mem es hn.1 d hd, (hat d.1 d.2).mp he⟩
      · rintro ⟨-, name, c, hc, he⟩
        obtain ⟨es', hes, hm⟩ := mem_of_child _ c name hc
        rw [directory.inj hes]
        exact ⟨(name, c), hm, (hat name c).mpr he⟩

/-- Each class file that a scan finds stands at the end of directories that can be opened. -/
theorem of_mem_classFiles (dir : Path) (n : FileNode) (hn : n.Tidy) (e : Path × Timestamp)
    (he : e ∈ n.classFiles opens dir) : ∃ dirs name data,
      (∀ dir ∈ dirs, isPackageName dir = true) ∧
      (∀ above, above <+: dirs → opens (dir.below above) = true) ∧
      n.descend (dirs ++ [name]) = some (.file data e.2) ∧ e.1 = (dir.below dirs).join name ∧
      e.1.isClassFile = true := by
  obtain ⟨hopens, name, c, hc, hfile | ⟨hname, hbelow⟩⟩ :=
    (mem_classFiles_iff opens dir n hn e).mp he
  · obtain ⟨data, rfl, hpath, hclass⟩ := hfile
    refine ⟨[], name, data, fun _ h => absurd h List.not_mem_nil, fun above habove => ?_,
      by simp [descend, hc], hpath, hclass⟩
    rw [List.prefix_nil.mp habove]
    exact hopens
  · have hsmall := sizeOf_child_lt n c name hc
    have htidy := (tidy_child n c hn name hc).2
    obtain ⟨dirs, last, data, hdirs, hway, hnode, hpath, hclass⟩ :=
      of_mem_classFiles (dir.join name) c htidy e hbelow
    refine ⟨name :: dirs, last, data, List.forall_mem_cons.mpr ⟨hname, hdirs⟩,
      fun above habove => ?_, ?_, hpath, hclass⟩
    · rcases List.prefix_cons_iff.mp habove with rfl | ⟨rest, rfl, hrest⟩
      · exact hopens
      · exact hway rest hrest
    · rw [List.cons_append, descend, hc]
      exact hnode
termination_by sizeOf n

/-- And a scan misses no such file. -/
theorem mem_classFiles_of_descend (dir : Path) (n : FileNode) (hn : n.Tidy) (dirs : List String)
    (name : String) (data : List UInt8) (time : Timestamp)
    (hdirs : ∀ dir ∈ dirs, isPackageName dir = true)
    (hway : ∀ above, above <+: dirs → opens (dir.below above) = true)
    (h : n.descend (dirs ++ [name]) = some (.file data time))
    (hclass : ((dir.below dirs).join name).isClassFile = true) :
    ((dir.below dirs).join name, time) ∈ n.classFiles opens dir := by
  have hopens : opens dir = true := hway [] List.nil_prefix
  induction dirs generalizing dir n with
  | nil =>
    obtain ⟨c, hc, hfile⟩ := Option.bind_eq_some_iff.mp h
    refine (mem_classFiles_iff opens dir n hn _).mpr
      ⟨hopens, name, c, hc, Or.inl ⟨data, ?_, rfl, hclass⟩⟩
    exact Option.some.inj hfile
  | cons first dirs ih =>
    obtain ⟨hfirst, hdirs⟩ := List.forall_mem_cons.mp hdirs
    obtain ⟨c, hc, hnode⟩ := Option.bind_eq_some_iff.mp h
    have htidy := (tidy_child n c hn first hc).2
    have hbelow (above : List String) (habove : above <+: dirs) :
        opens ((dir.join first).below above) = true :=
      hway (first :: above) (List.prefix_cons_iff.mpr (Or.inr ⟨above, rfl, habove⟩))
    refine (mem_classFiles_iff opens dir n hn _).mpr
      ⟨hopens, first, c, hc, Or.inr ⟨hfirst, ?_⟩⟩
    exact ih (dir.join first) c htidy hdirs hbelow hnode hclass (hbelow [] List.nil_prefix)

end FileNode

namespace Watchlist

variable (w : Watchlist) (t : FileTree) (opens : Path → Bool)

/-- A scan sees just the class files that stand in directories it can open. -/
theorem mem_visible_iff (ht : t.root.Tidy) (p : Path) (time : Timestamp) :
    (p, time) ∈ w.visible t opens ↔ w.Sees t opens p time := by
  constructor
  · intro h
    obtain ⟨root, hroot, h⟩ := List.mem_flatMap.mp h
    cases hn : t.node? root with
    | none => simp [hn] at h
    | some n =>
      simp only [hn] at h
      have htidy := t.tidy_of_node root ht n hn
      obtain ⟨dirs, name, data, hdirs, hway, hfile, hpath, hclass⟩ :=
        FileNode.of_mem_classFiles opens root n htidy (p, time) h
      exact ⟨root, hroot, dirs, ⟨hdirs, hclass, n, name, data, hn, hfile, hpath⟩, hway⟩
  · rintro ⟨root, hroot, dirs, ⟨hdirs, hclass, n, name, data, hn, hfile, rfl⟩, hway⟩
    have htidy := t.tidy_of_node root ht n hn
    refine List.mem_flatMap.mpr ⟨root, hroot, ?_⟩
    simp only [hn]
    exact FileNode.mem_classFiles_of_descend opens root n htidy dirs name data time hdirs hway hfile
      hclass

/-- What is seen under a path is the file that stands there. -/
theorem of_mem_visible (ht : t.root.Tidy) (e : Path × Timestamp) (he : e ∈ w.visible t opens) :
    ∃ data, t.root.descend (t.spelledNames e.1) = some (.file data e.2) := by
  obtain ⟨root, -, dirs, ⟨-, -, n, name, data, hn, hfile, hpath⟩, -⟩ :=
    (w.mem_visible_iff t opens ht e.1 e.2).mp he
  obtain ⟨htext, hroot⟩ := t.node_eq root n hn
  have htidy := t.tidy_of_node root ht n hn
  have hnames := FileNode.isName_of_descend n _ htidy _ hfile
  have hcomponents := root.components_below (dirs ++ [name]) htext hnames
  rw [Path.below_append_singleton, ← hpath] at hcomponents
  -- Below its root a file is spelled by plain names only, so these are added at the end.
  have hspelled : t.spelledNames e.1 = t.spelledNames root ++ (dirs ++ [name]) := by
    have hnormal (l : List String) (here : List String) :
        (l.map Component.normal).foldl Component.enter here = l.reverse ++ here := by
      induction l generalizing here with
      | nil => rfl
      | cons name l ih => simp [Component.enter, ih]
    rw [FileTree.spelledNames_eq, hcomponents, List.foldl_append, hnormal, List.reverse_append,
      List.reverse_reverse, FileTree.spelledNames_eq]
  refine ⟨data, ?_⟩
  rw [hspelled, FileNode.descend_append, hroot]
  exact hfile

/-- However a path is spelled, it is seen with one time. -/
theorem visible_unique (ht : t.root.Tidy) (d e : Path × Timestamp) (hd : d ∈ w.visible t opens)
    (he : e ∈ w.visible t opens) (h : compare d.1 e.1 = .eq) : d.2 = e.2 := by
  obtain ⟨data, hfile⟩ := of_mem_visible w t opens ht d hd
  obtain ⟨data', hfile'⟩ := of_mem_visible w t opens ht e he
  rw [t.spelledNames_congr d.1 e.1 h, hfile'] at hfile
  exact (FileNode.file.inj (Option.some.inj hfile)).2.symm

end Watchlist

end Retest
