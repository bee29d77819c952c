import Retest.Config
import Retest.Proofs.Collection
import Retest.Proofs.PatternReach

/-! Which directories a configuration lists. If no character of the base directory is a wildcard,
they are those below it that the entries stand for. The wildcards of a base are not taken literally,
so such a base can lead into the directories beside it. -/

namespace Retest
open Std

/-- Pieces that ask for no parent lead nowhere but down. -/
theorem FileTree.suffix_along (here : List String) (l : List (List Char))
    (h : ∀ piece ∈ l, piece ≠ ['.', '.']) : here <:+ FileTree.along here l := by
  induction l generalizing here with
  | nil => exact List.suffix_refl here
  | cons piece l ih =>
    obtain ⟨hpiece, hl⟩ := List.forall_mem_cons.mp h
    rw [← List.singleton_append, along_append]
    have hfirst : here <:+ along here [piece] := by
      by_cases hnone : piece = [] ∨ piece = ['.']
      · simp [along, Path.component?, hnone]
      · simp [along, Path.component?, hnone, hpiece, Component.enter]
    exact hfirst.trans (ih _ hl)

namespace Config

section Reading

variable {α β ε : Type} (f : α → Except ε β)

theorem exists_mapM_iff (l : List α) :
    (∃ m, l.mapM f = .ok m) ↔ ∀ a ∈ l, ∃ b, f a = .ok b := by
  induction l with
  | nil => exact iff_of_true ⟨[], rfl⟩ fun _ h => absurd h List.not_mem_nil
  | cons a l ih =>
    rw [List.forall_mem_cons, ← ih, List.mapM_cons]
    cases f a with
    | error e => simp [bind, Except.bind]
    | ok b =>
      cases l.mapM f <;> simp [bind, Except.bind, pure, Except.pure]

theorem mem_of_mapM (l : List α) (m : List β) (h : l.mapM f = .ok m) :
    (∀ b ∈ m, ∃ a ∈ l, f a = .ok b) ∧ ∀ a ∈ l, ∃ b ∈ m, f a = .ok b := by
  induction l generalizing m with
  | nil =>
    cases h
    exact ⟨fun _ h => absurd h List.not_mem_nil, fun _ h => absurd h List.not_mem_nil⟩
  | cons a l ih =>
    rw [List.mapM_cons] at h
    cases hb : f a with
    | error e =>
      rw [hb] at h
      cases h
    | ok b =>
      cases hm : l.mapM f with
      | error e =>
        rw [hb, hm] at h
        cases h
      | ok rest =>
        rw [hb, hm] at h
        cases h
        obtain ⟨hof, hto⟩ := ih rest hm
        refine ⟨List.forall_mem_cons.mpr ⟨⟨a, List.mem_cons_self, hb⟩, ?_⟩,
          List.forall_mem_cons.mpr ⟨⟨b, List.mem_cons_self, hb⟩, ?_⟩⟩
        · intro b' hb'
          obtain ⟨a', ha', h'⟩ := hof b' hb'
          exact ⟨a', List.mem_cons_of_mem a ha', h'⟩
        · intro a' ha'
          obtain ⟨b', hb', h'⟩ := hto a' ha'
          exact ⟨b', List.mem_cons_of_mem b hb', h'⟩

end Reading

variable (c : Config) (t : FileTree)

/-- A path is what an entry stands for below the base: a plain entry for itself, a pattern for a
directory. -/
def Names (entry : String) (p : Path) : Prop :=
  (Glob.isPattern entry.toList = false ∧ p = c.base.join entry) ∨
    (Glob.isPattern entry.toList = true ∧ t.isDir p = true ∧
      ∃ r, Glob.StandsFor true entry r ∧ t.spelledNames p = t.spelledNames (c.base.join r))

structure Keeps (found : List Path) : Prop where
  ordered : found.Pairwise fun p q => compare p q = .lt
  plain : ∀ entry ∈ c.classDirs, Glob.isPattern entry.toList = false →
    ∃ p ∈ found, p.same (c.base.join entry) = true

/-- A list of directories as the entries of a configuration call for it. Whatever is listed lies
below the base if no entry asks for a parent, and each directory below the base that a pattern
stands for is listed. -/
structure Lists (found : List Path) : Prop extends c.Keeps found where
  named : ∀ p ∈ found, ∃ entry ∈ c.classDirs, c.Names t entry p
  inside : (∀ entry ∈ c.classDirs, Glob.Stays entry) →
    ∀ p ∈ found, t.spelledNames c.base <+: t.spelledNames p
  matched : ∀ entry ∈ c.classDirs, Glob.isPattern entry.toList = true →
    ∀ r, Glob.StandsFor false entry r → t.isDir (c.base.join r) = true →
      ¬Glob.Stalls (c.base.join r) →
      ∃ p ∈ found, t.spelledNames p = t.spelledNames (c.base.join r)

variable {c t}

theorem dirsOf_ok_iff (entry : String) (l : List Path) : c.dirsOf t entry = .ok l ↔
    (Glob.isPattern entry.toList = false ∧ l = [c.base.join entry]) ∨
      (Glob.isPattern entry.toList = true ∧ ∃ found,
        Glob.expand? t (c.base.join entry) = some found ∧ l = found.filter t.isDir) := by
  rw [dirsOf]
  cases hp : Glob.isPattern entry.toList with
  | false => simp [eq_comm]
  | true => cases Glob.expand? t (c.base.join entry) <;> simp [eq_comm]

theorem names_of_dirsOf (ht : t.Tidy) (hbase : Glob.isPattern c.base.text.toList = false)
    (entry : String) (hrelative : entry.toList.head? ≠ some '/') (l : List Path)
    (h : c.dirsOf t entry = .ok l) (p : Path) (hp : p ∈ l) : c.Names t entry p := by
  rcases (dirsOf_ok_iff entry l).mp h with ⟨hplain, rfl⟩ | ⟨hpattern, found, hfound, rfl⟩
  · exact Or.inl ⟨hplain, List.mem_singleton.mp hp⟩
  · obtain ⟨hmem, hdir⟩ := List.mem_filter.mp hp
    have hne : entry.toList ≠ [] := by
      intro hnil
      rw [hnil] at hpattern
      exact absurd hpattern (by decide)
    obtain ⟨r, hr, htrail⟩ :=
      Glob.of_mem_expand t ht c.base hbase entry hne hrelative found hfound p hmem
    refine Or.inr ⟨hpattern, hdir, r, hr, ?_⟩
    rw [FileTree.spelledNames_eq_trail, htrail, ← FileTree.spelledNames_eq_trail]

/-- What an entry stands for lies below the base, unless the entry asks for a parent. -/
theorem prefix_of_names (entry : String) (hrelative : entry.toList.head? ≠ some '/')
    (hstays : Glob.Stays entry) (p : Path) (h : c.Names t entry p) :
    t.spelledNames c.base <+: t.spelledNames p := by
  -- It is enough to look at the pieces that are joined to the base.
  have hjoin (r : String) (hr : r.toList.head? ≠ some '/')
      (hpieces : ∀ piece ∈ Path.pieces r.toList, piece ≠ ['.', '.']) :
      t.spelledNames c.base <+: t.spelledNames (c.base.join r) := by
    rw [FileTree.spelledNames_eq_trail, FileTree.spelledNames_eq_trail, t.trail_join c.base r hr,
      List.reverse_prefix]
    exact FileTree.suffix_along _ _ hpieces
  rcases h with ⟨-, rfl⟩ | ⟨-, -, r, ⟨hr, steps, hsteps, hm⟩, hnames⟩
  · refine hjoin entry hrelative ?_
    rintro piece hpiece rfl
    exact hstays _ hpiece (['.', '.'].map .char) (by decide) Glob.parent_mem_dotNames
  · rw [hnames]
    refine hjoin r hr (Glob.ne_parent_of_matches hm ?_)
    intro tokens htokens
    obtain ⟨piece, hpiece, hstep⟩ := Glob.exists_piece_of_mem entry.toList steps hsteps _ htokens
    exact hstays piece hpiece tokens hstep

theorem dirs_ok_iff (found : List Path) : c.dirs t = .ok found ↔
    ∃ parts, c.classDirs.mapM (c.dirsOf t) = .ok parts ∧
      found = (SortedSet.ofList parts.flatten).toList := by
  rw [dirs]
  cases c.classDirs.mapM (c.dirsOf t) <;> simp [Except.map, eq_comm]

theorem exists_dirs_iff : (∃ found, c.dirs t = .ok found) ↔
    ∀ entry ∈ c.classDirs, ∃ part, c.dirsOf t entry = .ok part := by
  rw [← exists_mapM_iff]
  simp only [dirs_ok_iff]
  exact ⟨fun ⟨_, parts, h, _⟩ => ⟨parts, h⟩, fun ⟨parts, h⟩ => ⟨_, parts, h, rfl⟩⟩

/-- Each listed path comes from an entry. -/
theorem exists_entry_of_mem (found : List Path) (h : c.dirs t = .ok found) (p : Path)
    (hp : p ∈ found) : ∃ entry ∈ c.classDirs, ∃ part, c.dirsOf t entry = .ok part ∧ p ∈ part := by
  obtain ⟨parts, hparts, rfl⟩ := (dirs_ok_iff found).mp h
  obtain ⟨part, hpart, hp⟩ :=
    List.mem_flatten.mp (SortedSet.mem_of_mem_ofList parts.flatten p hp)
  obtain ⟨entry, hentry, hdirs⟩ := (mem_of_mapM (c.dirsOf t) c.classDirs parts hparts).1 part hpart
  exact ⟨entry, hentry, part, hdirs, hp⟩

/-- Each path of an entry is listed, maybe in another spelling. -/
theorem exists_mem_dirs (found : List Path) (h : c.dirs t = .ok found) (entry : String)
    (hentry : entry ∈ c.classDirs) :
    ∃ part, c.dirsOf t entry = .ok part ∧ ∀ p ∈ part, ∃ q ∈ found, compare p q = .eq := by
  obtain ⟨parts, hparts, rfl⟩ := (dirs_ok_iff found).mp h
  obtain ⟨part, hpart, hdirs⟩ :=
    (mem_of_mapM (c.dirsOf t) c.classDirs parts hparts).2 entry hentry
  refine ⟨part, hdirs, fun p hp => ?_⟩
  rw [← SortedSet.contains_iff, SortedSet.contains_ofList]
  exact ⟨p, List.mem_flatten.mpr ⟨part, hpart, hp⟩, ReflCmp.compare_self⟩

theorem keeps_dirs (found : List Path) (h : c.dirs t = .ok found) : c.Keeps found where
  ordered := by
    obtain ⟨parts, -, rfl⟩ := (dirs_ok_iff found).mp h
    exact SortedSet.sorted_ofList parts.flatten
  plain := by
    intro entry hentry hplain
    obtain ⟨part, hdirs, hkept⟩ := exists_mem_dirs found h entry hentry
    rcases (dirsOf_ok_iff entry part).mp hdirs with ⟨-, rfl⟩ | ⟨hpattern, -⟩
    · obtain ⟨q, hq, hsame⟩ := hkept _ (List.mem_singleton_self _)
      refine ⟨q, hq, ?_⟩
      rw [Path.same, OrientedCmp.eq_symm hsame]
      rfl
    · simp [hplain] at hpattern

theorem matched_dirs (ht : t.Tidy) (hbase : Glob.isPattern c.base.text.toList = false)
    (found : List Path) (h : c.dirs t = .ok found) (entry : String) (hentry : entry ∈ c.classDirs)
    (hrelative : entry.toList.head? ≠ some '/') (hpattern : Glob.isPattern entry.toList = true)
    (r : String) (hr : Glob.StandsFor false entry r) (hdir : t.isDir (c.base.join r) = true)
    (hmoves : ¬Glob.Stalls (c.base.join r)) :
    ∃ p ∈ found, t.spelledNames p = t.spelledNames (c.base.join r) := by
  obtain ⟨part, hdirs, hkept⟩ := exists_mem_dirs found h entry hentry
  rcases (dirsOf_ok_iff entry part).mp hdirs with ⟨hplain, -⟩ | ⟨-, all, hall, rfl⟩
  · simp [hpattern] at hplain
  · obtain ⟨p, hp, hpdir, htrail⟩ :=
      Glob.exists_mem_expand t ht c.base hbase entry hrelative all hall r hr hdir hmoves
    obtain ⟨q, hq, hsame⟩ := hkept p (List.mem_filter.mpr ⟨hp, hpdir⟩)
    refine ⟨q, hq, ?_⟩
    rw [← t.spelledNames_congr p q hsame, FileTree.spelledNames_eq_trail, htrail,
      ← FileTree.spelledNames_eq_trail]

/-- Whatever its base, a configuration lists its plain entries, in order. If no character of the
base is a wildcard, it lists just what its entries call for, unless one of its patterns cannot be
read. -/
theorem lists_dirs (c : Config) (t : FileTree) (ht : t.Tidy)
    (hrelative : ∀ entry ∈ c.classDirs, entry.toList.head? ≠ some '/') :
    (∀ found, c.dirs t = .ok found → c.Keeps found) ∧
      (Glob.isPattern c.base.text.toList = false →
        ((∃ found, c.dirs t = .ok found) ↔ ∀ entry ∈ c.classDirs,
          Glob.isPattern entry.toList = true → (Glob.stepsOf? entry.toList).isSome = true) ∧
        ∀ found, c.dirs t = .ok found → c.Lists t found) := by
  refine ⟨keeps_dirs, fun hbase => ⟨?_, fun found h => ⟨keeps_dirs found h, ?_, ?_, ?_⟩⟩⟩
  · rw [exists_dirs_iff]
    refine forall₂_congr fun entry hentry => ?_
    rw [← Glob.expand_isSome_iff t c.base hbase entry (hrelative entry hentry)]
    simp only [dirsOf_ok_iff]
    cases hp : Glob.isPattern entry.toList with
    | false => simp
    | true => cases Glob.expand? t (c.base.join entry) <;> simp
  · intro p hp
    obtain ⟨entry, hentry, part, hdirs, hp⟩ := exists_entry_of_mem found h p hp
    exact ⟨entry, hentry, names_of_dirsOf ht hbase entry (hrelative entry hentry) part hdirs p hp⟩
  · intro hstays p hp
    obtain ⟨entry, hentry, part, hdirs, hp⟩ := exists_entry_of_mem found h p hp
    have hnames := names_of_dirsOf ht hbase entry (hrelative entry hentry) part hdirs p hp
    exact prefix_of_names entry (hrelative entry hentry) (hstays entry hentry) p hnames
  · intro entry hentry hpattern r hr hdir hmoves
    exact matched_dirs ht hbase found h entry hentry (hrelative entry hentry) hpattern r hr hdir
      hmoves

namespace Sample

def shelf (left right : String) : FileTree :=
  let project : FileNode := .directory [("m1", .directory [])]
  ⟨.directory [(left, project), (right, project)], []⟩

def modules (base : String) : Config where
  name := "p"
  classDirs := ["m*", "x"]
  command := ["w"]
  base := ⟨base⟩

theorem tidy_shelf (left right : String) (hleft : Path.IsName left) (hright : Path.IsName right)
    (hne : left ≠ right) : (shelf left right).Tidy where
  root := by
    have hmodule : (FileNode.directory [("m1", .directory [])]).Tidy :=
      ⟨by decide, by decide, FileNode.tidy_nil, trivial⟩
    exact ⟨by simpa using hne, hleft, hmodule, hright, hmodule, trivial⟩
  workingDir := fun name h => absurd h List.not_mem_nil

theorem relative_modules (base : String) :
    ∀ entry ∈ (modules base).classDirs, entry.toList.head? ≠ some '/' := by
  intro entry hentry
  rcases List.mem_cons.mp hentry with rfl | hentry
  · decide
  · rw [List.mem_singleton.mp hentry]
    decide

theorem standsFor_module : Glob.StandsFor false "m*" "m1" := by
  refine ⟨by decide, [.name [.char 'm', .anyText]], by decide, ?_⟩
  refine Glob.Matches.wild (by decide) (show Path.IsName "m1" by decide) ?_ .done
  simp [Glob.fits, Glob.Token.accepts]

theorem stays_modules (base : String) : ∀ entry ∈ (modules base).classDirs, Glob.Stays entry := by
  -- No entry has a piece with a dot in front.
  have hpiece (piece : List Char) (tokens : List Glob.Token)
      (h : Glob.Step.ofText? piece = some (.name tokens))
      (hpiece : piece = ['m', '*'] ∨ piece = ['x']) : ".." ∉ Glob.dotNames tokens := by
    rcases hpiece with rfl | rfl <;>
    · cases h
      simp [Glob.dotNames]
  intro entry hentry piece hmem tokens h
  refine hpiece piece tokens h ?_
  rcases List.mem_cons.mp hentry with rfl | hentry
  · exact Or.inl (List.mem_singleton.mp hmem)
  · rw [List.mem_singleton.mp hentry] at hmem
    exact Or.inr (List.mem_singleton.mp hmem)

theorem not_stalls_module : ¬Glob.Stalls ⟨"b/m1"⟩ := by
  rintro ⟨-, dots, rest, h⟩
  have hpieces : Path.pieces (⟨"b/m1"⟩ : Path).text.toList = [['b'], ['m', '1']] := by decide
  rw [hpieces] at h
  cases dots <;> simp [List.replicate_succ] at h

/-- Entries that are listed in order stay as they are. -/
theorem names_eq (t : FileTree) (p : Path) (l : List String)
    (h : (t.node? p).map (fun n => n.entries.map (·.1)) = some l)
    (hl : l.Pairwise fun a b => (compare a b).isLE = true) : t.names p = l := by
  obtain ⟨n, hn, hentries⟩ := Option.map_eq_some_iff.mp h
  rw [FileTree.names, hn]
  simp only [hentries]
  exact List.mergeSort_of_pairwise hl

theorem dirs_modules (base : String) (t : FileTree) (found : List Path)
    (h : Glob.expand? t ((⟨base⟩ : Path).join "m*") = some found) : (modules base).dirs t =
      .ok (SortedSet.ofList (found.filter t.isDir ++ [(⟨base⟩ : Path).join "x"])).toList := by
  have hpattern : (modules base).dirsOf t "m*" = .ok (found.filter t.isDir) :=
    (dirsOf_ok_iff "m*" _).mpr (Or.inr ⟨by decide, found, h, rfl⟩)
  have hplain : (modules base).dirsOf t "x" = .ok [(⟨base⟩ : Path).join "x"] :=
    (dirsOf_ok_iff "x" _).mpr (Or.inl ⟨by decide, rfl⟩)
  have hparts : (modules base).classDirs.mapM ((modules base).dirsOf t) =
      .ok [found.filter t.isDir, [(⟨base⟩ : Path).join "x"]] := by
    change ["m*", "x"].mapM ((modules base).dirsOf t) = _
    rw [List.mapM_cons, hpattern, List.mapM_cons, hplain]
    rfl
  refine (dirs_ok_iff _).mpr ⟨_, hparts, ?_⟩
  rw [List.flatten_cons, List.flatten_singleton]

theorem expand_starred :
    Glob.expand? (shelf "a*" "ab") ⟨"a*/m*"⟩ = some [⟨"a*/m1"⟩, ⟨"ab/m1"⟩] := by
  have hsteps : Glob.stepsOf? (Glob.body ⟨"a*/m*"⟩) =
      some [.name [.char 'a', .anyText], .name [.char 'm', .anyText]] := by decide
  have horigin : Glob.origin ⟨"a*/m*"⟩ = ⟨"."⟩ := by decide
  have hdirs : (shelf "a*" "ab").isDir ⟨"."⟩ = true ∧ (shelf "a*" "ab").isDir ⟨"a*"⟩ = true ∧
      (shelf "a*" "ab").isDir ⟨"ab"⟩ = true := by decide
  have hnames : (shelf "a*" "ab").names ⟨"."⟩ = ["a*", "ab"] :=
    names_eq _ _ _ (by decide) (by decide)
  have hbelow : (shelf "a*" "ab").names ⟨"a*"⟩ = ["m1"] ∧
      (shelf "a*" "ab").names ⟨"ab"⟩ = ["m1"] := by decide +kernel
  have hinto : Glob.stepInto ⟨"."⟩ "a*" = ⟨"a*"⟩ ∧ Glob.stepInto ⟨"."⟩ "ab" = ⟨"ab"⟩ ∧
      Glob.stepInto ⟨"a*"⟩ "m1" = ⟨"a*/m1"⟩ ∧ Glob.stepInto ⟨"ab"⟩ "m1" = ⟨"ab/m1"⟩ := by
    decide
  rw [Glob.expand_eq, hsteps, horigin]
  simp [Glob.follow, Glob.plainText?, Glob.dotNames, Glob.fits, Glob.Token.accepts, hdirs, hnames,
    hbelow, hinto]

theorem expand_bracketed : Glob.expand? (shelf "[x]" "y") ⟨"[x]/m*"⟩ = some [] := by
  have hsteps : Glob.stepsOf? (Glob.body ⟨"[x]/m*"⟩) =
      some [.name [.within [.one 'x']], .name [.char 'm', .anyText]] := by decide
  have horigin : Glob.origin ⟨"[x]/m*"⟩ = ⟨"."⟩ := by decide
  have hnames : (shelf "[x]" "y").names ⟨"."⟩ = ["[x]", "y"] :=
    names_eq _ _ _ (by decide) (by decide)
  rw [Glob.expand_eq, hsteps, horigin]
  simp [Glob.follow, Glob.plainText?, Glob.dotNames, Glob.fits, Glob.Token.accepts,
    Glob.Range.contains, hnames]

end Sample

/-- The module of the directory `b` is listed, and so is the plain directory that is not there. -/
theorem modules_are_listed :
    ∃ found, (Sample.modules "b").dirs (Sample.shelf "a" "b") = .ok found ∧
      (∃ p ∈ found, (Sample.shelf "a" "b").spelledNames p = ["b", "m1"]) ∧
      (∃ p ∈ found, p.same ⟨"b/x"⟩ = true) ∧
      ∀ p ∈ found, ["b"] <+: (Sample.shelf "a" "b").spelledNames p := by
  have htidy := Sample.tidy_shelf "a" "b" (by decide) (by decide) (by decide)
  have hmodules := lists_dirs (Sample.modules "b") (Sample.shelf "a" "b") htidy
    (Sample.relative_modules "b")
  obtain ⟨hok, hlists⟩ := hmodules.2 (by decide)
  obtain ⟨found, hfound⟩ := hok.mpr (by decide)
  have hlist := hlists found hfound
  refine ⟨found, hfound, ?_, ?_, ?_⟩
  · obtain ⟨p, hp, hnames⟩ := hlist.matched "m*" List.mem_cons_self (by decide) "m1"
      Sample.standsFor_module (by decide) Sample.not_stalls_module
    exact ⟨p, hp, hnames.trans (by decide)⟩
  · exact hlist.plain "x" (by decide) (by decide)
  · exact hlist.inside (Sample.stays_modules "b")

/-- A base is no text of its own in a pattern. Its star leads into the directory beside it, and its
brackets do not lead into itself, though the configuration is accepted and all its entries are
relative and ask for no parent. -/
theorem base_is_expanded :
    (Sample.shelf "a*" "ab").Tidy ∧ (Sample.shelf "[x]" "y").Tidy ∧
      (∀ base, (Sample.modules base).check = .ok () ∧ ∀ entry ∈ (Sample.modules base).classDirs,
        entry.toList.head? ≠ some '/' ∧ Glob.Stays entry) ∧
      (∃ found, (Sample.modules "a*").dirs (Sample.shelf "a*" "ab") = .ok found ∧
        ∃ p ∈ found, ¬(Sample.shelf "a*" "ab").spelledNames ⟨"a*"⟩ <+:
          (Sample.shelf "a*" "ab").spelledNames p) ∧
      Glob.StandsFor false "m*" "m1" ∧ (Sample.shelf "[x]" "y").isDir ⟨"[x]/m1"⟩ = true ∧
      (Sample.modules "[x]").dirs (Sample.shelf "[x]" "y") = .ok [⟨"[x]/x"⟩] := by
  have hstarred : (Sample.modules "a*").dirs (Sample.shelf "a*" "ab") =
      .ok [⟨"a*/m1"⟩, ⟨"a*/x"⟩, ⟨"ab/m1"⟩] := by
    rw [Sample.dirs_modules "a*" _ _ Sample.expand_starred]
    exact congrArg Except.ok (by decide)
  have hbracketed : (Sample.modules "[x]").dirs (Sample.shelf "[x]" "y") = .ok [⟨"[x]/x"⟩] := by
    rw [Sample.dirs_modules "[x]" _ _ Sample.expand_bracketed]
    exact congrArg Except.ok (by decide)
  refine ⟨Sample.tidy_shelf _ _ (by decide) (by decide) (by decide),
    Sample.tidy_shelf _ _ (by decide) (by decide) (by decide), ?_, ⟨_, hstarred, ?_⟩,
    Sample.standsFor_module, by decide, hbracketed⟩
  · exact fun base => ⟨by rfl, fun entry h =>
      ⟨Sample.relative_modules base entry h, Sample.stays_modules base entry h⟩⟩
  · exact ⟨⟨"ab/m1"⟩, by decide, by decide⟩

end Config

end Retest
