import Retest.Proofs.PathPatterns
import Retest.Proofs.Trails

namespace Retest

namespace FileNode

/-- The paths from a directory on, one level at a time. -/
theorem mem_pathsFrom_iff (dir : Path) (n : FileNode) (hn : n.Tidy) (q : Path) :
    q ∈ n.pathsFrom dir ↔ ∃ name c, n.child? name = some c ∧
      (q = dir.join name ∨ q ∈ c.pathsFrom (dir.join name)) := by
  have hlistings (es : List (String × FileNode)) :
      q ∈ (pathsFrom.listings dir es).flatMap (·.2) ↔
        ∃ e ∈ es, q = dir.join e.1 ∨ q ∈ e.2.pathsFrom (dir.join e.1) := by
    induction es with
    | nil => simp [pathsFrom.listings]
    | cons e es ih => simp [pathsFrom.listings, ih, or_assoc]
  cases n with
  | file data modified => simp [pathsFrom, child?, entries]
  | directory es =>
    have hflat : q ∈ (directory es).pathsFrom dir ↔
        q ∈ (pathsFrom.listings dir es).flatMap (·.2) := by
      simp [pathsFrom, pathsFrom.flatten, List.mem_mergeSort]
    rw [hflat, hlistings]
    constructor
    · rintro ⟨e, he, hq⟩
      exact ⟨e.1, e.2, child_of_mem es hn.1 e he, hq⟩
    · rintro ⟨name, c, hc, hq⟩
      obtain ⟨es', hes, hm⟩ := mem_of_child _ c name hc
      exact ⟨(name, c), directory.inj hes ▸ hm, hq⟩

/-- All that stands below a directory is listed by its path. -/
theorem mem_pathsFrom (dir : Path) (n : FileNode) (hn : n.Tidy) (q : Path) :
    q ∈ n.pathsFrom dir ↔ ∃ names, names ≠ [] ∧ (n.descend names).isSome = true ∧
      q = dir.below names := by
  rw [mem_pathsFrom_iff dir n hn q]
  constructor
  · rintro ⟨name, c, hc, rfl | hq⟩
    · exact ⟨[name], List.cons_ne_nil _ _, by simp [descend, hc], rfl⟩
    · have hsmall := sizeOf_child_lt n c name hc
      obtain ⟨names, -, hnode, hq⟩ :=
        (mem_pathsFrom (dir.join name) c (tidy_child n c hn name hc).2 q).mp hq
      exact ⟨name :: names, List.cons_ne_nil _ _, by simpa [descend, hc] using hnode, hq⟩
  · rintro ⟨names, hnames, hnode, rfl⟩
    cases names with
    | nil => exact absurd rfl hnames
    | cons name names =>
      obtain ⟨m, hm⟩ := Option.isSome_iff_exists.mp hnode
      obtain ⟨c, hc, hrest⟩ := Option.bind_eq_some_iff.mp hm
      refine ⟨name, c, hc, ?_⟩
      cases names with
      | nil => exact Or.inl rfl
      | cons next names =>
        have hsmall := sizeOf_child_lt n c name hc
        exact Or.inr ((mem_pathsFrom (dir.join name) c (tidy_child n c hn name hc).2 _).mpr
          ⟨next :: names, List.cons_ne_nil _ _, Option.isSome_of_eq_some hrest, rfl⟩)
termination_by sizeOf n

end FileNode

namespace Glob

/-! One step further along a path. -/

variable (t : FileTree) (dirsOnly : Bool)

theorem stepInto_eq (p : Path) (name : String) (h : '/' ∉ name.toList) :
    stepInto p name = (if p.same ⟨"."⟩ then (⟨""⟩ : Path) else p).join name := by
  have hhead := Path.head_ne_slash name.toList h
  rw [stepInto]
  split
  · simp [Path.join, hhead]
  · rfl

theorem trail_join_name (p : Path) (name : String) (h : '/' ∉ name.toList) :
    t.trail (p.join name) = FileTree.along (t.trail p) [name.toList] := by
  have hhead := Path.head_ne_slash name.toList h
  rw [t.trail_join p name hhead, Path.pieces_of_no_slash _ h]

/-- A step into a name leads there, also from the lone dot, in whose place it stands. -/
theorem trail_stepInto (p : Path) (name : String) (h : '/' ∉ name.toList) :
    t.trail (stepInto p name) = FileTree.along (t.trail p) [name.toList] := by
  rw [stepInto_eq p name h, trail_join_name t _ name h]
  split
  · next hdot =>
    rw [t.trail_congr p ⟨"."⟩ hdot]
    rfl
  · rfl

/-- A step takes the first piece of what is left. -/
theorem along_stepInto (p : Path) (name : String) (h : '/' ∉ name.toList) (l : List (List Char)) :
    FileTree.along (t.trail (stepInto p name)) l =
      FileTree.along (t.trail p) (name.toList :: l) := by
  rw [trail_stepInto t p name h, ← FileTree.along_append]
  rfl

theorem fileName_stepInto (p : Path) (name : String) (h : Path.IsName name) :
    (stepInto p name).fileName = some name := by
  rw [stepInto_eq p name h.noSlash]
  exact Path.fileName_join _ name h

/-- A path with a file name is not the lone dot, so the next step is joined to it. -/
theorem stepInto_of_fileName (p : Path) (name next : String) (h : p.fileName = some name) :
    stepInto p next = p.join next := by
  have hsame : p.same ⟨"."⟩ = false := by
    rw [Bool.eq_false_iff]
    intro hdot
    rw [Path.fileName, (Path.same_dot_iff p).mp hdot] at h
    cases h
  rw [stepInto, hsame]
  rfl

theorem foldl_stepInto (p : Path) (name : String) (names : List String) (h : Path.IsName name)
    (hnames : ∀ name ∈ names, Path.IsName name) :
    names.foldl stepInto (stepInto p name) = (stepInto p name).below names := by
  induction names generalizing p name with
  | nil => rfl
  | cons next names ih =>
    obtain ⟨hnext, hnames⟩ := List.forall_mem_cons.mp hnames
    have hjoin := stepInto_of_fileName _ name next (fileName_stepInto p name h)
    rw [List.foldl_cons, ih (stepInto p name) next hnext hnames, hjoin]
    rfl

/-- What stands below a directory is listed by steps into the names that lead there. -/
theorem mem_pathsBelow_iff (ht : t.Tidy) (p q : Path) : q ∈ pathsBelow t p ↔
    ∃ n names, t.node? p = some n ∧ names ≠ [] ∧ (n.descend names).isSome = true ∧
      q = names.foldl stepInto p := by
  rw [pathsBelow]
  cases hn : t.node? p with
  | none => simp
  | some n =>
    have htidy := t.tidy_of_node p ht.root n hn
    simp only [FileNode.mem_pathsFrom _ n htidy, Option.some.injEq, exists_eq_left',
      exists_and_left]
    refine exists_congr fun names => ?_
    refine and_congr_right fun hsome => and_congr_right fun hnode => ?_
    obtain ⟨m, hm⟩ := Option.isSome_iff_exists.mp hnode
    have hnames := FileNode.isName_of_descend n m htidy names hm
    cases names with
    | nil => exact absurd rfl hsome
    | cons name names =>
      obtain ⟨hname, hnames⟩ := List.forall_mem_cons.mp hnames
      rw [List.foldl_cons, foldl_stepInto p name names hname hnames,
        stepInto_eq p name hname.noSlash]
      rfl

theorem trail_foldl_stepInto (p : Path) (names : List String)
    (h : ∀ name ∈ names, Path.IsName name) : t.trail (names.foldl stepInto p) =
      FileTree.along (t.trail p) (names.map String.toList) := by
  induction names generalizing p with
  | nil => rfl
  | cons name names ih =>
    obtain ⟨hname, hnames⟩ := List.forall_mem_cons.mp h
    rw [List.foldl_cons, ih (stepInto p name) hnames, trail_stepInto t p name hname.noSlash,
      ← FileTree.along_append]
    rfl

theorem mem_names_iff (ht : t.Tidy) (p : Path) (name : String) : name ∈ t.names p ↔
    ∃ n, t.node? p = some n ∧ (n.child? name).isSome = true := by
  rw [FileTree.names]
  cases hn : t.node? p with
  | none => simp
  | some n =>
    simp only [List.mem_mergeSort, List.mem_map, Option.some.injEq, exists_eq_left',
      Option.isSome_iff_exists]
    cases n with
    | file data modified => simp [FileNode.entries, FileNode.child?]
    | directory es =>
      constructor
      · rintro ⟨e, he, rfl⟩
        exact ⟨e.2, FileNode.child_of_mem es (t.tidy_of_node p ht.root _ hn).1 e he⟩
      · rintro ⟨c, hc⟩
        obtain ⟨es', hes, hm⟩ := FileNode.mem_of_child _ c name hc
        rw [← FileNode.directory.inj hes] at hm
        exact ⟨(name, c), hm, rfl⟩

/-- Whatever following some steps finds is reached along pieces that the steps stand for. -/
theorem of_mem_follow (ht : t.Tidy) (steps : List Step) (hflat : Flat steps) (p q : Path)
    (h : q ∈ follow t dirsOnly steps p) :
    ∃ l, Matches true steps l ∧ t.trail q = FileTree.along (t.trail p) l := by
  fun_induction follow t dirsOnly steps p with
  | case1 p hdir => exact ⟨[], .done, by rw [List.mem_singleton.mp h]; rfl⟩
  | case2 p hdir => exact absurd h List.not_mem_nil
  | case3 rest p ih =>
    obtain ⟨l, hl, htrail⟩ := ih (forall_tokens_of_cons hflat) h
    exact ⟨l, .again hl, htrail⟩
  | case4 p =>
    obtain ⟨n, names, hn, hsome, hnode, rfl⟩ :=
      (mem_pathsBelow_iff t ht p q).mp (List.mem_filter.mp h).1
    obtain ⟨m, hm⟩ := Option.isSome_iff_exists.mp hnode
    have hnames := FileNode.isName_of_descend n m (t.tidy_of_node p ht.root n hn) names hm
    exact ⟨names.map String.toList, .down hsome hnames, trail_foldl_stepInto t p names hnames⟩
  | case5 tokens rest p ih =>
    obtain ⟨r, hr, h⟩ := List.mem_flatMap.mp h
    obtain ⟨n, names, hn, hsome, hnode, rfl⟩ := (mem_pathsBelow_iff t ht p r).mp hr
    obtain ⟨m, hm⟩ := Option.isSome_iff_exists.mp hnode
    have hnames := FileNode.isName_of_descend n m (t.tidy_of_node p ht.root n hn) names hm
    -- The last of the names is the one that the tokens are compared with.
    obtain ⟨above, last, hconcat⟩ := (List.eq_nil_or_concat names).resolve_left hsome
    rw [List.concat_eq_append] at hconcat
    subst hconcat
    have hlast : Path.IsName last := hnames last (by simp)
    have habove : ∀ name ∈ above, Path.IsName name :=
      fun name hname => hnames name (List.mem_append_left _ hname)
    have hfile : ((above ++ [last]).foldl stepInto p).fileName = some last := by
      rw [List.foldl_append]
      exact fileName_stepInto _ last hlast
    rw [hfile] at h
    split at h
    · next hfits =>
      obtain ⟨l, hl, htrail⟩ := ih _ (forall_tokens_of_cons (forall_tokens_of_cons hflat)) h
      refine ⟨_, .downTo habove hlast hfits hl, ?_⟩
      rw [htrail, trail_foldl_stepInto t p _ hnames, ← FileTree.along_append]
      simp
    · exact absurd h List.not_mem_nil
  | case6 tokens rest p name hplain hgoes ih =>
    obtain ⟨l, hl, htrail⟩ := ih (forall_tokens_of_cons hflat) h
    have hslash : '/' ∉ (String.ofList name).toList := by
      rw [String.toList_ofList]
      exact hflat tokens List.mem_cons_self name hplain
    refine ⟨name :: l, .plain hplain hl, ?_⟩
    rw [htrail, along_stepInto t p _ hslash, String.toList_ofList]
  | case7 tokens rest p name hplain hgoes => exact absurd h List.not_mem_nil
  | case8 tokens rest p hwild hdir ihdot ih =>
    rcases List.mem_append.mp h with h | h
    · obtain ⟨name, hname, h⟩ := List.mem_flatMap.mp h
      obtain ⟨l, hl, htrail⟩ := ihdot name (forall_tokens_of_cons hflat) h
      have hslash := noSlash_of_mem_dotNames tokens name hname
      refine ⟨name.toList :: l, .dot rfl hwild hname hl, ?_⟩
      rw [htrail, trail_join_name t p name hslash, ← FileTree.along_append]
      rfl
    · obtain ⟨name, hname, h⟩ := List.mem_flatMap.mp h
      split at h
      · next hfits =>
        obtain ⟨l, hl, htrail⟩ := ih name (forall_tokens_of_cons hflat) h
        obtain ⟨n, hn, hchild⟩ := (mem_names_iff t ht p name).mp hname
        obtain ⟨c, hc⟩ := Option.isSome_iff_exists.mp hchild
        have hisName :=
          (FileNode.tidy_child n c (t.tidy_of_node p ht.root n hn) name hc).1
        refine ⟨name.toList :: l, .wild hwild hisName hfits hl, ?_⟩
        rw [htrail, along_stepInto t p name hisName.noSlash]
      · exact absurd h List.not_mem_nil
  | case9 tokens rest p hwild hdir => exact absurd h List.not_mem_nil

theorem text_of_isAbsolute (p : Path) (h : p.isAbsolute = true) :
    p.text.toList = '/' :: body p := by
  rw [body, if_pos h]
  cases hl : p.text.toList with
  | nil => simp [Path.isAbsolute, hl] at h
  | cons c rest =>
    obtain rfl : c = '/' := by simpa [Path.isAbsolute, hl] using h
    rfl

theorem steps_eq_body (p : Path) : p.steps = (Path.pieces (body p)).filterMap Path.component? := by
  by_cases h : p.isAbsolute = true
  · rw [Path.steps, text_of_isAbsolute p h]
    rfl
  · rw [Path.steps, body, if_neg h]

theorem start_origin (t : FileTree) (p : Path) : t.start (origin p) = t.start p := by
  have h : (origin p).isAbsolute = p.isAbsolute := by
    cases h : p.isAbsolute <;> rw [origin, h] <;> rfl
  rw [FileTree.start, FileTree.start, h]

theorem trail_origin (t : FileTree) (p : Path) : t.trail (origin p) = t.start p := by
  rw [← start_origin, FileTree.trail]
  rw [origin]
  split <;> rfl

/-- A path leads along what stands behind its slash. -/
theorem trail_eq_along (t : FileTree) (p : Path) :
    t.trail p = FileTree.along (t.start p) (Path.pieces (body p)) := by
  rw [FileTree.trail, steps_eq_body]
  rfl

/-- What is joined to a path without wildcards is a pattern if it is one alone. -/
theorem expand_isSome_iff (t : FileTree) (base : Path) (hbase : isPattern base.text.toList = false)
    (entry : String) (hrelative : entry.toList.head? ≠ some '/') :
    (expand? t (base.join entry)).isSome = (stepsOf? entry.toList).isSome := by
  obtain ⟨front, hplain, hfront⟩ := exists_front base hbase
  rw [expand_eq, stepsOf_join base front hplain entry (hfront entry hrelative), Option.isSome_map,
    Option.isSome_map]

/-- Whatever a pattern that is joined to a path without wildcards finds, the entry alone stands for
its place below that path. -/
theorem of_mem_expand (t : FileTree) (ht : t.Tidy) (base : Path)
    (hbase : isPattern base.text.toList = false) (entry : String)
    (hentry : entry.toList ≠ []) (hrelative : entry.toList.head? ≠ some '/') (found : List Path)
    (h : expand? t (base.join entry) = some found) (q : Path) (hq : q ∈ found) :
    ∃ r, StandsFor true entry r ∧ t.trail q = t.trail (base.join r) := by
  obtain ⟨front, hplain, hfront⟩ := exists_front base hbase
  rw [expand_eq, stepsOf_join base front hplain entry (hfront entry hrelative), Option.map_map] at h
  obtain ⟨steps, hsteps, rfl⟩ := Option.map_eq_some_iff.mp h
  have hflat : Flat (front.map plainStep ++ steps) := by
    refine flat_of_stepsOf (body (base.join entry)) _ ?_
    rw [stepsOf_join base front hplain entry (hfront entry hrelative), hsteps]
    rfl
  obtain ⟨l, hl, htrail⟩ := of_mem_follow t _ ht _ hflat _ q hq
  obtain ⟨rest, rfl, hrest⟩ := (matches_plain_append true front steps l).mp hl
  -- The pieces behind those of the base make up a text of their own.
  obtain ⟨first, more, rfl, hfirst⟩ :=
    exists_first_of_stepsOf entry.toList steps hentry hrelative hsteps
  have hslash := noSlash_of_matches hrest (flat_of_stepsOf entry.toList _ hsteps)
  have hhead := head_of_matches hrest (by simpa using hfirst)
  obtain ⟨r, hr, hpieces⟩ :=
    exists_text rest (ne_nil_of_matches hrest (List.cons_ne_nil _ _)) hslash hhead
  refine ⟨r, ⟨hr, first :: more, hsteps, by rwa [hpieces]⟩, ?_⟩
  rw [htrail, trail_origin, t.start_join base entry hrelative, trail_eq_along, hfront r hr, hpieces,
    t.start_join base r hr]

end Glob

end Retest
