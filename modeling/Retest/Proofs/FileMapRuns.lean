import Retest.Proofs.FileMap

namespace Retest
open Std

namespace Catalog

/-- The map from files and the graph agree: every class that a file is known to hold is a vertex of
a class from a file, and a vertex of a class from a file is what this file is known to hold. -/
structure Agrees (c : Catalog) : Prop where
  held : ∀ p x, c.byFile.find? p = some x →
    ∃ y, c.graph.classOf? x.name = some y ∧ y.isLocated = true
  mapped : ∀ a x p, c.graph.classOf? a = some x → x.file = some p → c.byFile.find? p = some x

/-- What a listed file held under a name that no listed file has now was held by listed files
only. -/
def Shared (c : Catalog) (k : IndexCall) : Prop :=
  ∀ f ∈ k.files, ∀ x, c.byFile.find? f = some x → k.found.find? x.name = none →
    ∀ g y, c.byFile.find? g = some y → y.name = x.name → Listed k.files g

def Fresh (c : Catalog) (k : IndexCall) : Prop :=
  ∀ a p, k.Wants a → (standIn (k.resolved c) a).file = some p →
    Listed k.files p ∨ c.byFile.find? p = none

section Index

variable (c : Catalog) (k : IndexCall)

/-- A name that no listed file has now stays unless a listed file was known to hold it. -/
theorem contains_noted_of_lost {a : String} (ha : k.found.find? a = none) :
    (c.noted k).graph.contains a = true ↔ c.graph.contains a = true ∧
      ∀ f ∈ k.files, ∀ x, c.byFile.find? f = some x → x.name ≠ a := by
  have hl (f : Path) (hf : f ∈ k.files) := k.not_holds_of_lost ha f hf
  rw [contains_noted_iff]
  refine and_congr_right fun _ => Iff.trans (and_iff_left ?_) ?_
  · exact List.pairwise_of_forall_mem_list fun f hf g _ _ _ hname => absurd hname (hl f hf)
  · exact forall₄_congr fun f hf x hx => by simp [hl f hf]

theorem contains_linking (a : String) :
    ({ c.noted k with graph := (c.noted k).graph.addAll k.found.values } :
      Catalog).graph.contains a = false ↔
        k.found.find? a = none ∧ (c.noted k).graph.contains a = false := by
  rw [ImportGraph.contains_eq_isSome, ImportGraph.classOf_addAll _ _ k.found_injective,
    k.find_values_found, ImportGraph.contains_eq_isSome]
  cases k.found.find? a <;> simp

theorem byFile_index_of_noted (p : Path) (x : JvmClass)
    (h : (c.noted k).byFile.find? p = some x) : (c.index k).byFile.find? p = some x := by
  rw [index, update_eq]
  exact byFile_linkAll_of_known _ _ _ p x h

/-- The update adds only files of classes that stand in for imports. -/
theorem of_byFile_index (p : Path) (x : JvmClass) (h : (c.index k).byFile.find? p = some x) :
    (c.noted k).byFile.find? p = some x ∨ ∃ a, k.Wants a ∧ k.found.find? a = none ∧
      (c.noted k).graph.contains a = false ∧ x = standIn (k.resolved c) a ∧
      ∃ f, x.file = some f ∧ compare p f = .eq := by
  rw [index, update_eq] at h
  rcases of_byFile_linkAll _ _ (k.standIn_name c) _ p x h with hx | ⟨⟨n, a⟩, he, hno, hx⟩
  · exact Or.inl hx
  · obtain ⟨hfound, hnoted⟩ := (contains_linking c k a).mp hno
    exact Or.inr ⟨a, ⟨n, (k.mem_importPairs_found n a).mp he⟩, hfound, hnoted, hx⟩

theorem exists_byFile_index {a : String} {p : Path} (hw : k.Wants a) (hf : k.found.find? a = none)
    (hn : (c.noted k).graph.contains a = false) (hp : (standIn (k.resolved c) a).file = some p) :
    ∃ x, (c.index k).byFile.find? p = some x := by
  obtain ⟨n, cls, hcls, ha⟩ := hw
  rw [index, update_eq]
  exact exists_byFile_linkAll _ _ (k.standIn_name c) _ (n, a)
    ((k.mem_importPairs_found n a).mpr ⟨cls, hcls, ha⟩) ((contains_linking c k a).mpr ⟨hf, hn⟩) p hp

end Index

section Step

variable {c : Catalog} (d : Disk) (files : List Path)

/-- A class that is found is noted for the file that it says it is from. -/
theorem byFile_noted_of_found {a : String} {x : JvmClass}
    (h : (d.call files).found.find? a = some x) {p : Path} (hp : x.file = some p) :
    (c.noted (d.call files)).byFile.find? p = some x := by
  let k := d.call files
  have hpresent (f : Path) (hf : f ∈ files.filter d.present) : d.present f = true :=
    (List.mem_filter.mp hf).2
  have hsame : ∀ f ∈ files.filter d.present, ∀ g ∈ files.filter d.present, compare f g = .eq →
      ∀ x, k.holds f = some x → ∃ y, k.holds g = some y ∧ y.name = x.name :=
    fun f _ g hg hfg x hx => d.holds_respelled files hfg hx (hpresent g hg)
  rw [IndexCall.found_eq] at h
  obtain ⟨f, -, hfx, hfind⟩ := byFile_foldl_note_of_found (files.filter d.present)
    ((files.filter fun f => !d.present f).foldl (fun c f => c.note f (k.holds f)) c) a x hsame h
  obtain ⟨f', hf', hff⟩ := d.located_of_holds files f x hfx
  obtain rfl : f' = p := Option.some.inj (hf'.symm.trans hp)
  rw [SortedMap.find_congr _ f' f hff, noted, IndexCall.ordered, List.foldl_append]
  exact hfind

/-- A name is resolved to the class that its file holds. -/
theorem holds_of_standIn {a : String} {p : Path}
    (h : (standIn ((d.call files).resolved c) a).file = some p) :
    (d.call files).holds p = some (standIn ((d.call files).resolved c) a) := by
  obtain ⟨hs, -, -⟩ := of_standIn_located c (d.call files) h
  rw [hs] at h ⊢
  obtain ⟨hpresent, hparse⟩ := d.resolved a p h
  have hread : (d.source.parse p).isUnparsable = false := by
    rw [hparse]
    exact d.readable a
  change (if _ then _ else _) = some (d.source.resolve a)
  rw [if_pos ⟨hpresent, hread⟩]
  exact congrArg some hparse

/-- Where a name is resolved to a listed file, that file does not hold a class: another spelling of
its path would have had the name found. -/
theorem byFile_noted_of_standIn {a : String} {p : Path}
    (h : (standIn ((d.call files).resolved c) a).file = some p) (hp : Listed files p) :
    (c.noted (d.call files)).byFile.find? p = none := by
  let k := d.call files
  obtain ⟨f, hf, hpf, hfind⟩ := byFile_noted_of_listed c k p hp
  rw [hfind, Option.eq_none_iff_forall_ne_some]
  intro y hy
  obtain ⟨hpresent, -, -⟩ := k.parse_of_holds f y hy
  obtain ⟨z, hz, hname⟩ := d.holds_respelled files hpf (holds_of_standIn d files h) hpresent
  rw [k.standIn_name c] at hname
  refine k.not_holds_of_lost (of_standIn_located c k h).2.2 f hf ?_
  rw [hz, Option.map_some, hname]

/-- Two names are never resolved to one file. -/
theorem standIn_injective {a b : String} {p q : Path}
    (ha : (standIn ((d.call files).resolved c) a).file = some p)
    (hb : (standIn ((d.call files).resolved c) b).file = some q) (hpq : compare p q = .eq) :
    a = b := by
  let k := d.call files
  have hq := holds_of_standIn d files hb
  obtain ⟨hpresent, -, -⟩ := k.parse_of_holds q _ hq
  obtain ⟨y, hy, hname⟩ := d.holds_respelled files hpq (holds_of_standIn d files ha) hpresent
  obtain rfl := Option.some.inj (hq.symm.trans hy)
  rw [k.standIn_name c, k.standIn_name c] at hname
  exact hname.symm

theorem held_of_shared (hwf : c.graph.WellFormed) (ha : c.Agrees) (hs : c.Shared (d.call files))
    (p : Path) (x : JvmClass) (h : (c.index (d.call files)).byFile.find? p = some x) :
    ∃ y, (c.index (d.call files)).graph.classOf? x.name = some y ∧ y.isLocated = true := by
  let k := d.call files
  have hfound (y : JvmClass) (hy : k.found.find? x.name = some y) :
      ∃ y, (c.index k).graph.classOf? x.name = some y ∧ y.isLocated = true := by
    obtain ⟨-, f, -, hfy⟩ := k.find_found x.name y hy
    obtain ⟨f', hf', -⟩ := d.located_of_holds files f y hfy
    exact ⟨y, classOf_index_of_found c k hy, by rw [JvmClass.isLocated, hf']; rfl⟩
  rcases of_byFile_index c k p x h with hx | ⟨a, hw, hf, hn, rfl, f, hfile, -⟩
  · cases hy : k.found.find? x.name with
    | some y => exact hfound y hy
    | none =>
      by_cases hp : Listed files p
      · obtain ⟨f, hf, -, hfind⟩ := byFile_noted_of_listed c k p hp
        rw [hx] at hfind
        exact absurd (by rw [← hfind]; rfl) (k.not_holds_of_lost hy f hf)
      · rw [byFile_noted_of_unlisted c k p hp] at hx
        obtain ⟨y, hcy, hloc⟩ := ha.held p x hx
        -- If a listed file gave the name up, this file would have been listed with it.
        have hvertex := (ImportGraph.contains_iff _ _).mpr ⟨y, hcy⟩
        have hkept : (c.noted k).graph.contains x.name = true := by
          refine (contains_noted_of_lost c k hy).mpr ⟨hvertex, ?_⟩
          intro f hf z hz hzx
          exact hp (hs f hf z hz (hzx ▸ hy) p x hx hzx.symm)
        exact ⟨y, classOf_index_of_noted c k hwf hy hkept hcy, hloc⟩
  · rw [k.standIn_name c]
    exact ⟨_, classOf_index_of_wanted c k hf hn hw, by rw [JvmClass.isLocated, hfile]; rfl⟩

theorem mapped_of_fresh (hwf : c.graph.WellFormed) (ha : c.Agrees) (hs : c.Fresh (d.call files))
    (a : String) (x : JvmClass) (p : Path)
    (h : (c.index (d.call files)).graph.classOf? a = some x) (hp : x.file = some p) :
    (c.index (d.call files)).byFile.find? p = some x := by
  let k := d.call files
  rcases classOf_index_cases c k h with hx | ⟨hf, hkept⟩ | ⟨hf, hn, hw, rfl⟩
  · exact byFile_index_of_noted c k p x (byFile_noted_of_found d files hx hp)
  · have hx := (restricts_noted c k hwf).classes a x hkept
    have hn := (ImportGraph.contains_iff _ a).mpr ⟨x, hkept⟩
    have hbefore := ha.mapped a x p hx hp
    have hname := hwf.named a x hx
    -- The name was kept though nobody found it, so its file is not listed.
    have hunlisted : ¬Listed files p := by
      rintro ⟨f, hfk, hpf⟩
      have hkept := ((contains_noted_of_lost c k hf).mp hn).2 f hfk x
      rw [← SortedMap.find_congr c.byFile p f hpf] at hkept
      exact hkept hbefore hname
    refine byFile_index_of_noted c k p x ?_
    rw [byFile_noted_of_unlisted c k p hunlisted, hbefore]
  · have hnone : (c.noted k).byFile.find? p = none := by
      by_cases hl : Listed files p
      · exact byFile_noted_of_standIn d files hp hl
      · rw [byFile_noted_of_unlisted c k p hl]
        exact (hs a p hw hp).resolve_left hl
    obtain ⟨y, hy⟩ := exists_byFile_index c k hw hf hn hp
    rcases of_byFile_index c k p y hy with hold | ⟨b, -, -, -, rfl, q, hq, hpq⟩
    · rw [hnone] at hold
      cases hold
    · rw [hy, standIn_injective d files hp hq hpq]

/-- An update keeps the agreement just when it gives up no class that an unlisted file stands for,
and resolves no import to an unlisted file that is known to hold something else. -/
theorem agrees_index_iff (hwf : c.graph.WellFormed) (ha : c.Agrees) :
    (c.index (d.call files)).Agrees ↔ c.Shared (d.call files) ∧ c.Fresh (d.call files) := by
  let k := d.call files
  have hstays (p : Path) (x : JvmClass) (hp : ¬Listed files p) (hx : c.byFile.find? p = some x) :
      (c.index k).byFile.find? p = some x :=
    byFile_index_of_noted c k p x (by rw [byFile_noted_of_unlisted c k p hp, hx])
  have hvertex (p : Path) (x : JvmClass) (hx : c.byFile.find? p = some x) :
      c.graph.contains x.name = true := by
    obtain ⟨y, hy, -⟩ := ha.held p x hx
    exact (ImportGraph.contains_iff _ _).mpr ⟨y, hy⟩
  constructor
  · intro h
    refine ⟨?_, ?_⟩
    · intro f hf x hx hlost g y hy hyx
      by_contra hg
      -- The unlisted file still stands for the name, so the update must have kept it.
      obtain ⟨z, hz, hloc⟩ := h.held g y (hstays g y hg hy)
      rw [hyx] at hz
      rcases classOf_index_cases c k hz with hfound | ⟨-, hkept⟩ | ⟨-, -, -, rfl⟩
      · rw [hlost] at hfound
        cases hfound
      · have hn := (ImportGraph.contains_iff _ _).mpr ⟨z, hkept⟩
        exact ((contains_noted_of_lost c k hlost).mp hn).2 f hf x hx rfl
      · obtain ⟨q, hq⟩ := Option.isSome_iff_exists.mp hloc
        have hcontains := hvertex f x hx
        rw [(of_standIn_located c k hq).2.1] at hcontains
        cases hcontains
    · intro a p hw hp
      by_contra hno
      rw [not_or] at hno
      -- The file keeps its entry, which is then not the class that comes in.
      obtain ⟨x, hx⟩ := Option.ne_none_iff_exists'.mp hno.2
      obtain ⟨-, hnew, hlost⟩ := of_standIn_located c k hp
      have hn : (c.noted k).graph.contains a = false := by
        rw [Bool.eq_false_iff]
        intro hn
        rw [((contains_noted_of_lost c k hlost).mp hn).1] at hnew
        cases hnew
      have hmapped := h.mapped a _ p (classOf_index_of_wanted c k hlost hn hw) hp
      rw [hstays p x hno.1 hx] at hmapped
      have hname : x.name = a := by rw [Option.some.inj hmapped, k.standIn_name c]
      have hcontains := hvertex p x hx
      rw [hname, hnew] at hcontains
      cases hcontains
  · rintro ⟨hs, hf⟩
    exact ⟨held_of_shared d files hwf ha hs, mapped_of_fresh d files hwf ha hf⟩

end Step

/-- What is resolved for a name on demand. -/
theorem demand_eq (c : Catalog) (source : ClassSource) (name : String) :
    (c.demand source name).1 = if c.graph.contains name = true then c
      else (c.ensure (.ofList [(name, source.resolve name)]) name).1 := by
  rw [demand, ImportGraph.contains_eq_isSome]
  cases c.graph.classOf? name <;> rfl

/-- The class that a demand brings in. -/
theorem standIn_demand (d : Disk) (name n : String) :
    standIn (.ofList [(name, d.source.resolve name)]) n =
      if n = name then d.source.resolve n else .placeholder n := by
  have hnames := standIn_ofNames d.source.resolve [name] n
  simp only [List.mem_singleton] at hnames
  exact hnames

theorem standIn_demand_name (d : Disk) (name n : String) :
    (standIn (.ofList [(name, d.source.resolve name)]) n).name = n := by
  rw [standIn_demand]
  split
  · exact d.resolve_name n
  · rfl

/-- A demand keeps the agreement just when the file of the class that comes in is not known to hold
anything else. -/
theorem agrees_demand_iff (d : Disk) (name : String) {c : Catalog} (ha : c.Agrees) :
    (c.demand d.source name).1.Agrees ↔ (c.graph.contains name = false →
      ∀ p, (d.source.resolve name).file = some p → c.byFile.find? p = none) := by
  rw [demand_eq]
  by_cases hc : c.graph.contains name = true
  · simp [hc, ha]
  rw [if_neg hc]
  have hno : c.graph.contains name = false := by simpa using hc
  have hclass (a : String) := classOf_ensure _ (standIn_demand_name d name) c name a
  have hfile (p : Path) := byFile_ensure (.ofList [(name, d.source.resolve name)]) c name p
  rw [standIn_demand, if_pos rfl] at hclass hfile
  have hnone : c.graph.classOf? name = none := by
    simpa [ImportGraph.contains_eq_isSome] using hno
  constructor
  · intro h _ p hp
    by_contra hx
    obtain ⟨x, hx⟩ := Option.ne_none_iff_exists'.mp hx
    have hmapped := h.mapped name _ p (by rw [hclass, hnone, if_pos rfl]; rfl) hp
    rw [hfile, hx, Option.some_or] at hmapped
    obtain ⟨y, hy, -⟩ := ha.held p x hx
    rw [Option.some.inj hmapped, d.resolve_name, hnone] at hy
    cases hy
  · intro hp
    refine ⟨?_, ?_⟩
    · intro p x hx
      rw [hfile, Option.or_eq_some_iff] at hx
      rcases hx with hx | ⟨-, hx⟩
      · obtain ⟨y, hy, hloc⟩ := ha.held p x hx
        exact ⟨y, by rw [hclass, hy]; rfl, hloc⟩
      · split at hx
        · next hnew =>
          obtain rfl := Option.some.inj hx
          obtain ⟨f, hf, -⟩ := (Option.any_eq_true _ _).mp hnew.2
          refine ⟨d.source.resolve name, ?_, by rw [JvmClass.isLocated, hf]; rfl⟩
          rw [hclass, d.resolve_name, hnone, if_pos rfl]
          rfl
        · cases hx
    · intro a x p hx hxp
      rw [hclass, Option.or_eq_some_iff] at hx
      rw [hfile]
      rcases hx with hx | ⟨-, hx⟩
      · rw [ha.mapped a x p hx hxp]
        rfl
      · split at hx
        · obtain rfl := Option.some.inj hx
          rw [hp hno p hxp, if_pos ⟨hno, by simp [hxp]⟩]
          rfl
        · cases hx

end Catalog

/-- What can happen to a catalogue: an update with some files, a demand for a class, or everything
is forgotten. The files may be others each time. -/
inductive CatalogMove where
  | update (d : Disk) (files : List Path)
  | demand (d : Disk) (name : String)
  | clear

namespace Catalog

def act (c : Catalog) : CatalogMove → Catalog
  | .update d files => (c.update d.source d.present files).1
  | .demand d name => (c.demand d.source name).1
  | .clear => .empty

def ofMoves (moves : List CatalogMove) : Catalog := moves.foldl act .empty

/-- A move respects what is known of files: an update gives up no class that an unlisted file stands
for, and a class that comes in is not from a file that is known to hold another one. -/
def Respects (c : Catalog) : CatalogMove → Prop
  | .update d files => c.Shared (d.call files) ∧ c.Fresh (d.call files)
  | .demand d name => c.graph.contains name = false →
    ∀ p, (d.source.resolve name).file = some p → c.byFile.find? p = none
  | .clear => True

theorem ofMoves_append (moves : List CatalogMove) (m : CatalogMove) :
    ofMoves (moves ++ [m]) = (ofMoves moves).act m := by
  simp [ofMoves]

theorem agrees_empty : Catalog.empty.Agrees where
  held p x h := by cases h
  mapped a x p h := by cases h

variable {c : Catalog}

theorem wellFormed_act (h : c.graph.WellFormed) (m : CatalogMove) : (c.act m).graph.WellFormed := by
  cases m with
  | update d files => exact wellFormed_index c (d.call files) h
  | demand d name =>
    change (c.demand d.source name).1.graph.WellFormed
    rw [demand_eq]
    split
    · exact h
    · exact wellFormed_ensure _ c name h
  | clear => exact ImportGraph.wellFormed_empty

theorem agrees_act_iff (hwf : c.graph.WellFormed) (ha : c.Agrees) (m : CatalogMove) :
    (c.act m).Agrees ↔ c.Respects m := by
  cases m with
  | update d files => exact agrees_index_iff d files hwf ha
  | demand d name => exact agrees_demand_iff d name ha
  | clear => exact iff_of_true agrees_empty trivial

def Readable (c : Catalog) : Prop :=
  ∀ a x, c.graph.classOf? a = some x → x.isUnparsable = false

theorem readable_standIn (d : Disk) (names : List String) (n : String) :
    (standIn (.ofList (names.map fun n => (n, d.source.resolve n))) n).isUnparsable = false := by
  rw [standIn_ofNames]
  split
  · exact d.readable n
  · rfl

theorem readable_act (hwf : c.graph.WellFormed) (h : c.Readable) (m : CatalogMove) :
    (c.act m).Readable := by
  cases m with
  | update d files =>
    intro a x hx
    let k := d.call files
    rcases classOf_index_cases c k hx with hfound | ⟨-, hkept⟩ | ⟨-, -, -, rfl⟩
    · obtain ⟨-, f, -, hf⟩ := k.find_found a x hfound
      exact (k.parse_of_holds f x hf).2.1
    · exact h a x ((restricts_noted c k hwf).classes a x hkept)
    · exact readable_standIn d _ a
  | demand d name =>
    intro a x hx
    change (c.demand d.source name).1.graph.classOf? a = some x at hx
    rw [demand_eq] at hx
    split at hx
    · exact h a x hx
    · rw [classOf_ensure _ (standIn_demand_name d name), Option.or_eq_some_iff] at hx
      rcases hx with hx | ⟨-, hx⟩
      · exact h a x hx
      · split at hx
        · rw [← Option.some.inj hx]
          exact readable_standIn d [name] name
        · cases hx
  | clear =>
    intro a x hx
    cases hx

theorem wellFormed_ofMoves (moves : List CatalogMove) : (ofMoves moves).graph.WellFormed := by
  induction moves using List.reverseRecOn with
  | nil => exact ImportGraph.wellFormed_empty
  | append_singleton moves m ih =>
    rw [ofMoves_append]
    exact wellFormed_act ih m

theorem readable_ofMoves (moves : List CatalogMove) : (ofMoves moves).Readable := by
  induction moves using List.reverseRecOn with
  | nil =>
    intro a x hx
    cases hx
  | append_singleton moves m ih =>
    rw [ofMoves_append]
    exact readable_act (wellFormed_ofMoves moves) ih m

/-- After any moves no vertex holds an unparsable class. The map from files and the graph agree
after every move just when each move respects what is known of files. -/
theorem file_map_agrees_iff (moves : List CatalogMove) :
    (ofMoves moves).Readable ∧
      ((∀ done, done <+: moves → (ofMoves done).Agrees) ↔
        ∀ done m, done ++ [m] <+: moves → (ofMoves done).Respects m) := by
  refine ⟨readable_ofMoves moves, ?_⟩
  apply forall_parts_iff (fun done => (ofMoves done).Agrees) _ moves agrees_empty
  intro done m h
  rw [ofMoves_append]
  exact agrees_act_iff (wellFormed_ofMoves done) h m

/-- Nothing is resolved to a file where a list tells what the paths hold. -/
theorem fresh_ofHoldings (c : Catalog) (held : List (Path × JvmClass))
    (h : ∀ e ∈ held, e.2.name ∉ e.2.imports.toList) (hf : ∀ e ∈ held, e.2.file = some e.1)
    (files : List Path) : c.Fresh ((Disk.ofHoldings held h hf).call files) := by
  intro a p _ hp
  obtain ⟨hs, -, -⟩ := of_standIn_located c _ hp
  rw [hs] at hp
  cases hp

end Catalog

namespace Copies

def copy (file : Path) : JvmClass := .ofImports "A" [] true (some file)

def both : Disk :=
  .ofHoldings [(⟨"c/A.class"⟩, copy ⟨"c/A.class"⟩), (⟨"d/A.class"⟩, copy ⟨"d/A.class"⟩)]
    (by decide) (by decide)

def one : Disk :=
  .ofHoldings [(⟨"d/A.class"⟩, copy ⟨"d/A.class"⟩)] (by decide) (by decide)

def first : CatalogMove := .update both [⟨"c/A.class"⟩, ⟨"d/A.class"⟩]

def removed : CatalogMove := .update one [⟨"c/A.class"⟩]

def relisted : CatalogMove := .update one [⟨"c/A.class"⟩, ⟨"d/A.class"⟩]

end Copies

namespace Catalog

/-- Where one of two files of a class is gone and only that one is listed, the class is lost, though
the other file is still known to hold it. -/
theorem removed_copy_loses_class :
    (ofMoves [Copies.first, Copies.removed]).byFile.find? ⟨"d/A.class"⟩ =
        some (Copies.copy ⟨"d/A.class"⟩) ∧
      (ofMoves [Copies.first, Copies.removed]).graph.classOf? "A" = none ∧
      ¬(ofMoves [Copies.first, Copies.removed]).Agrees := by
  have hheld : (ofMoves [Copies.first, Copies.removed]).byFile.find? ⟨"d/A.class"⟩ =
      some (Copies.copy ⟨"d/A.class"⟩) := by decide +kernel
  have hlost : (ofMoves [Copies.first, Copies.removed]).graph.classOf? "A" = none := by
    decide +kernel
  refine ⟨hheld, hlost, ?_⟩
  intro h
  obtain ⟨y, hy, -⟩ := h.held _ _ hheld
  have hy' : (ofMoves [Copies.first, Copies.removed]).graph.classOf? "A" = some y := hy
  rw [hlost] at hy'
  cases hy'

/-- Where both are listed, the class stays. -/
theorem relisted_copy_keeps_class : ∀ done, done <+: [Copies.first, Copies.relisted] →
    (ofMoves done).Agrees := by
  refine (file_map_agrees_iff [Copies.first, Copies.relisted]).2.mpr ?_
  apply forall_steps_pair
  · refine ⟨?_, fresh_ofHoldings _ _ _ _ _⟩
    intro f _ x hx
    cases hx
  · refine ⟨?_, fresh_ofHoldings _ _ _ _ _⟩
    intro f hf x hx hlost
    have hfound : ∀ f ∈ [(⟨"c/A.class"⟩ : Path), ⟨"d/A.class"⟩],
        ∀ x ∈ (ofMoves [Copies.first]).byFile.find? f,
          ((Copies.one.call [⟨"c/A.class"⟩, ⟨"d/A.class"⟩]).found.find? x.name).isSome = true := by
      decide +kernel
    have hsome := hfound f hf x hx
    rw [hlost] at hsome
    cases hsome

end Catalog

end Retest
