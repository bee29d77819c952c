import Retest.Proofs.FileMapRuns
import Retest.Proofs.FirstPass
import Retest.Proofs.UpdateEffect

/-! The same files listed a second time. An update gives up what its files were known to hold and do
not hold now; after a first update these are at most classes that it brought in by name, and from
those no other class was reached. So the second answer is that of the first, unless a path is listed
once as it leads to its file and once as it leads nowhere: then the class of the file is given up
and read again, and who imported it is lost. -/

namespace Retest
open Std

/-- The spellings under which a path is listed are found alike: all of them lead to classes of one
name, or none leads to a readable class. -/
def IndexCall.FoundAlike (k : IndexCall) : Prop :=
  ∀ f ∈ k.files, ∀ g ∈ k.files, compare f g = .eq →
    (k.holds f).map (·.name) = (k.holds g).map (·.name)

theorem IndexCall.FoundAlike.readsAlike {k : IndexCall} (h : k.FoundAlike) : k.ReadsAlike :=
  fun f hf g hg hgf _ _ => h f hf g hg (OrientedCmp.eq_symm hgf)

/-- A graph with more links reaches more. -/
theorem ImportGraph.affects_mono {g g' : ImportGraph} (hg : g.WellFormed) (hg' : g'.WellFormed)
    (h : ∀ a b, b ∈ g.importsOf a → b ∈ g'.importsOf a) {a n : String} (hreach : g.Affects a n) :
    g'.Affects a n := by
  rw [affects_iff hg] at hreach
  rw [affects_iff hg']
  exact Relation.ReflTransGen.mono h _ _ hreach

namespace Catalog

variable {c : Catalog} {k : IndexCall} (h : c.graph.WellFormed)

include h in
/-- Whatever was reached and is not of a listed file had a link, so noting the files has left it. -/
theorem contains_noted_of_reached {a n : String} (ha : k.found.contains a = true)
    (hn : k.found.find? n = none) (hreach : (c.index k).graph.Affects a n) :
    (c.noted k).graph.contains n = true := by
  rcases Relation.ReflTransGen.cases_tail hreach with rfl | ⟨b, -, hb⟩
  · rw [SortedMap.contains, hn] at ha
    cases ha
  · have himport : b ∈ (c.index k).graph.importsOf n :=
      ((wellFormed_index c k h).mirrored n b).mpr hb
    rcases (mem_importsOf_index c k n b).mp himport with ⟨x, hx, -⟩ | ⟨-, hnoted⟩
    · rw [hn] at hx
      cases hx
    · exact ImportGraph.contains_of_mem_importsOf _ n b hnoted

include h in
/-- A second update makes no link that was not there. -/
theorem mem_importsOf_of_again {a b : String}
    (hb : b ∈ ((c.index k).index k).graph.importsOf a) : b ∈ (c.index k).graph.importsOf a := by
  rcases (mem_importsOf_index _ k a b).mp hb with hread | ⟨-, hnoted⟩
  · exact (mem_importsOf_index c k a b).mpr (Or.inl hread)
  · exact (((restricts_noted _ k (wellFormed_index c k h)).links a b).mp hnoted).1

include h in
/-- What the second update finds in a file or leaves in the graph keeps its class. -/
theorem classOf_again {n : String}
    (hkept : k.found.find? n = none → ((c.index k).noted k).graph.contains n = true) :
    ((c.index k).index k).graph.classOf? n = (c.index k).graph.classOf? n := by
  cases hn : k.found.find? n with
  | some y => rw [classOf_index_of_found _ k hn, classOf_index_of_found c k hn]
  | none =>
    have hwf := wellFormed_index c k h
    have hnoted := hkept hn
    have hcontains := ImportGraph.contains_of_restricts _ _ (restricts_noted _ k hwf) n hnoted
    obtain ⟨x, hx⟩ := (ImportGraph.contains_iff _ n).mp hcontains
    rw [classOf_index_of_noted _ k hwf hn hnoted hx, hx]

include h in
/-- The second update reaches no class that the first one did not reach. -/
theorem impact_of_again {n : String} {x : JvmClass}
    (hx : ((c.index k).impact k).find? n = some x) : (c.impact k).find? n = some x := by
  have hwf := wellFormed_index c k h
  obtain ⟨hclass, a, ha, hreach⟩ := ((c.index k).find_impact k hwf n x).mp hx
  -- Links are only lost, so the same way was there the first time.
  have hreach' : (c.index k).graph.Affects a n :=
    ImportGraph.affects_mono (wellFormed_index _ k hwf) hwf
      (fun _ _ => mem_importsOf_of_again h) hreach
  refine (c.find_impact k h n x).mpr ⟨?_, a, ha, hreach'⟩
  rw [← classOf_again h fun hn => contains_noted_of_reached hwf ha hn hreach, hclass]

section FoundAlike

variable (hk : k.FoundAlike)
include h hk

omit h in
/-- The first update notes for a listed file what the file holds. So the second one gives up only
what the first one has put in the place of a name. -/
theorem contains_noted_again {a : String} (ha : (c.noted k).graph.contains a = true) :
    ((c.index k).noted k).graph.contains a = true := by
  have hcontains : (c.index k).graph.contains a = true :=
    (contains_index_iff c k a).mpr (Or.inr ((contains_noted_iff_not_givesUp c k a).mp ha))
  refine (contains_noted_iff_not_givesUp _ k a).mpr ⟨hcontains, ?_⟩
  rw [givesUp_iff_of_readsAlike _ k hk.readsAlike]
  rintro ⟨f, hf, x, hx, hname, hlost⟩
  -- The file is known from its note, which says what it holds, or in the place of a name that the
  -- notes have not left.
  rcases of_byFile_index c k f x hx with hnoted | ⟨b, -, -, hb, hstand, -⟩
  · obtain ⟨g, hg, hfg, hholds⟩ := byFile_noted_of_listed c k f ⟨f, hf, ReflOrd.compare_self⟩
    have hsame := hk f hf g hg hfg
    rw [← hholds, hnoted, Option.map_some, hname] at hsame
    exact hlost hsame
  · have hba : b = a := by rw [← hname, hstand, k.standIn_name c]
    rw [hba, ha] at hb
    cases hb

theorem mem_importsOf_again {a b : String} (hb : b ∈ (c.index k).graph.importsOf a) :
    b ∈ ((c.index k).index k).graph.importsOf a := by
  rcases (mem_importsOf_index c k a b).mp hb with hread | ⟨ha, hnoted⟩
  · exact (mem_importsOf_index _ k a b).mpr (Or.inl hread)
  · -- Both ends of the link were left by the first update, so the second one leaves them too.
    obtain ⟨-, hca, hcb⟩ := ((restricts_noted c k h).links a b).mp hnoted
    refine (mem_importsOf_index _ k a b).mpr (Or.inr ⟨ha, ?_⟩)
    refine ((restricts_noted _ k (wellFormed_index c k h)).links a b).mpr ⟨hb, ?_, ?_⟩
    · exact contains_noted_again hk hca
    · exact contains_noted_again hk hcb

/-- The second update reaches what the first one reached. -/
theorem impact_again : (c.index k).impact k = c.impact k := by
  have hwf := wellFormed_index c k h
  apply SortedMap.ext_find _ _ (sorted_impact _ k) (sorted_impact c k)
  intro n
  apply Option.ext
  intro x
  refine ⟨impact_of_again h, ?_⟩
  intro hx
  obtain ⟨hclass, a, ha, hreach⟩ := (c.find_impact k h n x).mp hx
  have hreach' : ((c.index k).index k).graph.Affects a n :=
    ImportGraph.affects_mono hwf (wellFormed_index _ k hwf)
      (fun _ _ => mem_importsOf_again h hk) hreach
  refine ((c.index k).find_impact k hwf n x).mpr ⟨?_, a, ha, hreach'⟩
  -- A class that no listed file holds was reached over a link, and is left both times.
  have hkept (hn : k.found.find? n = none) : ((c.index k).noted k).graph.contains n = true :=
    contains_noted_again hk (contains_noted_of_reached h ha hn hreach)
  rw [classOf_again h hkept, hclass]

end FoundAlike

end Catalog

/-- A second look at the file of the rules finds what the first one found. -/
theorem RuleBook.reload_again (b : RuleBook) (tree : FileTree) :
    (b.reload tree).1.reload tree = b.reload tree := by
  rw [reload]
  cases hf : b.file with
  | none => simp [reload, hf]
  | some file => cases hr : readFile tree file <;> simp [reload, hf, hr]

namespace Selection

section Again

variable (s : Selection) (tree : FileTree) {source : ClassSource} (hsource : source.Sound)
  (files : List Path)

def call : IndexCall where
  source
  present := tree.pathExists
  files
  parse_noLoop := hsource.parse_noLoop
  resolve_name := hsource.resolve_name

/-- Which classes are eligible is a matter of the rules and the class directories. -/
theorem eligible_congr (s s' : Selection) (hrules : s.rules = s'.rules)
    (hdirs : s.classDirs = s'.classDirs) (classes : SortedMap String JvmClass) :
    s.eligible classes = s'.eligible classes := by
  obtain ⟨c, rules, dirs⟩ := s
  obtain ⟨c', rules', dirs'⟩ := s'
  obtain rfl : rules = rules' := hrules
  obtain rfl : dirs = dirs' := hdirs
  rfl

section Answer

variable {s tree} {rules : RuleBook}

theorem testsFor_of_error {e : RuleFileError} (hload : s.rules.reload tree = (rules, .error e)) :
    s.testsFor tree source files = ({ s with rules }, .error e) := by
  rw [testsFor, reloadRules, hload]

theorem testsFor_of_acceptsNone (hload : s.rules.reload tree = (rules, .ok ()))
    (hnone : rules.acceptsNone = true) :
    s.testsFor tree source files = ({ s with rules }, .ok .empty) := by
  rw [testsFor, reloadRules, hload]
  exact if_pos hnone

/-- Where the rules load and leave something to run, the listed files are read. -/
theorem testsFor_of_loaded (hload : s.rules.reload tree = (rules, .ok ()))
    (hsome : ¬rules.acceptsNone = true) : s.testsFor tree source files =
      ({ s with catalog := s.catalog.index (call tree hsource files), rules },
        .ok (({ s with rules } : Selection).eligible
          (s.catalog.impact (call tree hsource files)))) := by
  have hfound : (s.catalog.update source tree.pathExists files).2 =
      (call tree hsource files).found :=
    congrArg Prod.snd (s.catalog.update_eq (call tree hsource files))
  have hupdate : s.catalog.update source tree.pathExists files =
      (s.catalog.index (call tree hsource files), (call tree hsource files).found) :=
    Prod.ext rfl hfound
  rw [testsFor, reloadRules, hload]
  refine (if_neg hsome).trans ?_
  simp only [hupdate]
  rw [eligible_congr { s with rules } _ rfl rfl]
  rfl

end Answer

theorem mem_eligible_impact {c : Catalog} (hc : c.graph.WellFormed) (k : IndexCall) (n : String) :
    n ∈ (s.eligible (c.impact k)).toList ↔
      ∃ x, (c.impact k).find? n = some x ∧ s.isEligible x = true := by
  refine s.mem_eligible _ (c.sorted_impact k) (fun a x hx => ?_) n
  exact (Catalog.wellFormed_index c k hc).named a x ((c.find_impact k hc a x).mp hx).1

/-- A second question is answered like the first one where the listed spellings of each path are
found alike. In any case it is answered when the first one was, and by no further test. -/
theorem testsFor_again (hwf : s.catalog.graph.WellFormed) :
    ((call tree hsource files).FoundAlike →
      ((s.testsFor tree source files).1.testsFor tree source files).2 =
        (s.testsFor tree source files).2) ∧
    ∀ again, ((s.testsFor tree source files).1.testsFor tree source files).2 = .ok again →
      ∃ tests, (s.testsFor tree source files).2 = .ok tests ∧
        ∀ n ∈ again.toList, n ∈ tests.toList := by
  have hagain := s.rules.reload_again tree
  cases hr : s.rules.reload tree with
  | mk rules result =>
    rw [hr] at hagain
    cases result with
    | error e =>
      rw [testsFor_of_error files hr, testsFor_of_error files hagain]
      exact ⟨fun _ => rfl, fun again hok => ⟨again, hok, fun n hn => hn⟩⟩
    | ok u =>
      by_cases hnone : rules.acceptsNone = true
      · rw [testsFor_of_acceptsNone files hr hnone, testsFor_of_acceptsNone files hagain hnone]
        exact ⟨fun _ => rfl, fun again hok => ⟨again, hok, fun n hn => hn⟩⟩
      · rw [testsFor_of_loaded hsource files hr hnone,
          testsFor_of_loaded hsource files hagain hnone]
        let indexed := s.catalog.index (call tree hsource files)
        dsimp only
        rw [eligible_congr { s with catalog := indexed, rules } { s with rules } rfl rfl]
        refine ⟨fun hk => ?_, fun again hok => ⟨_, rfl, fun n hn => ?_⟩⟩
        · rw [Catalog.impact_again hwf hk]
        · obtain rfl := Except.ok.inj hok
          have hwf' := Catalog.wellFormed_index s.catalog (call tree hsource files) hwf
          obtain ⟨x, hx, hel⟩ := (mem_eligible_impact _ hwf' _ n).mp hn
          exact (mem_eligible_impact _ hwf _ n).mpr ⟨x, Catalog.impact_of_again hwf hx, hel⟩

end Again

end Selection

namespace Relisted

def held : List (Path × JvmClass) :=
  [(⟨"c/T.class"⟩, .ofImports "T" ["A", "N"] true (some ⟨"c/T.class"⟩)),
    (⟨"c/A.class"⟩, .ofImports "A" [] false (some ⟨"c/A.class"⟩)),
    (⟨"c/N.class"⟩, .ofImports "N" [] false (some ⟨"c/N.class"⟩)),
    (⟨"c/R.class"⟩, .ofImports "R" ["N"] true (some ⟨"c/R.class"⟩))]

theorem noLoop_held : ∀ e ∈ held, e.2.name ∉ e.2.imports.toList := by
  decide

def source : ClassSource := (IndexCall.ofHoldings held noLoop_held []).source

theorem sound_source : source.Sound where
  parse_noLoop := (IndexCall.ofHoldings held noLoop_held []).parse_noLoop
  resolve_name := (IndexCall.ofHoldings held noLoop_held []).resolve_name

def tree : FileTree :=
  ⟨.directory [("c", .directory [("T.class", .file [] default), ("A.class", .file [] default),
    ("N.class", .file [] default), ("R.class", .file [] default),
    ("U.class", .file [] default)])], []⟩

/-- Only the test `T` has been read. It knows `A` and `N` by their names. -/
def young : Selection where
  catalog := (Catalog.empty.update source tree.pathExists [⟨"c/T.class"⟩]).1
  classDirs := [⟨"c"⟩]

def respelled : List Path := [⟨"c/A.class"⟩, ⟨"c/A.class/"⟩]

def former : IndexCall :=
  .ofHoldings [(⟨"c/T.class"⟩, .ofImports "T" ["A", "N"] true (some ⟨"c/T.class"⟩)),
    (⟨"c/G.class"⟩, .ofImports "G" ["T"] true (some ⟨"c/G.class"⟩)),
    (⟨"c/R.class"⟩, .ofImports "Q" ["A"] true (some ⟨"c/R.class"⟩)),
    (⟨"c/U.class"⟩, .ofImports "U" ["N"] true (some ⟨"c/U.class"⟩))] (by decide)
    [⟨"c/T.class"⟩, ⟨"c/G.class"⟩, ⟨"c/R.class"⟩, ⟨"c/U.class"⟩]

/-- The catalogue knows four classes from files. Of these files one is gone since, one cannot be
read any more, and one defines another class. -/
def grown : Selection where
  catalog := Catalog.empty.index former
  classDirs := [⟨"c"⟩]

def mixed : List Path :=
  [⟨"c/N.class"⟩, ⟨"c/G.class"⟩, ⟨"c/U.class"⟩, ⟨"c/R.class"⟩, ⟨"c/N.class"⟩, ⟨"c//G.class"⟩,
    ⟨"c/X.class"⟩]

end Relisted

namespace Selection

/-- Over files that are new, gone, unreadable, of another class, and listed again, both answers are
the same two tests. -/
theorem mixed_files_answer_alike : Relisted.grown.catalog.graph.WellFormed ∧
    (call Relisted.tree Relisted.sound_source Relisted.mixed).FoundAlike ∧
    ((Relisted.grown.testsFor Relisted.tree Relisted.source Relisted.mixed).1.testsFor
        Relisted.tree Relisted.source Relisted.mixed).2 =
      (Relisted.grown.testsFor Relisted.tree Relisted.source Relisted.mixed).2 ∧
    (Relisted.grown.testsFor Relisted.tree Relisted.source Relisted.mixed).2.toOption.map
      (·.toList) = some ["R", "T"] := by
  have hwf : Relisted.grown.catalog.graph.WellFormed := by
    dsimp only [Relisted.grown]
    exact Catalog.wellFormed_index _ Relisted.former ImportGraph.wellFormed_empty
  have halike : (call Relisted.tree Relisted.sound_source Relisted.mixed).FoundAlike := by
    unfold IndexCall.FoundAlike
    decide +kernel
  obtain ⟨hsame, -⟩ := testsFor_again Relisted.grown Relisted.tree Relisted.sound_source
    Relisted.mixed hwf
  exact ⟨hwf, halike, hsame halike, by decide +kernel⟩

/-- A path that is listed once as it leads to its file and once as it leads nowhere: the second
answer misses the test that imports the class of the file. -/
theorem respelled_path_loses_importer :
    ¬∀ (s : Selection) (tree : FileTree) (source : ClassSource) (files : List Path),
      s.catalog.graph.WellFormed → source.Sound →
        ((s.testsFor tree source files).1.testsFor tree source files).2 =
          (s.testsFor tree source files).2 := by
  intro h
  have hwf : Relisted.young.catalog.graph.WellFormed := by
    dsimp only [Relisted.young]
    exact Catalog.wellFormed_update _ _ _ _ ImportGraph.wellFormed_empty
  have hsame := h Relisted.young Relisted.tree Relisted.source Relisted.respelled hwf
    Relisted.sound_source
  have hfirst : (Relisted.young.testsFor Relisted.tree Relisted.source
      Relisted.respelled).2.toOption.map (·.toList) = some ["T"] := by
    decide +kernel
  have hsecond : ((Relisted.young.testsFor Relisted.tree Relisted.source
      Relisted.respelled).1.testsFor Relisted.tree Relisted.source
        Relisted.respelled).2.toOption.map (·.toList) = some [] := by
    decide +kernel
  rw [hsame, hfirst] at hsecond
  exact absurd hsecond (by decide)

end Selection

end Retest
