import Retest.Proofs.CatalogRuns

namespace Retest
open Std

def SpelledOnce (paths : List Path) : Prop :=
  ∀ p ∈ paths, ∀ q ∈ paths, p.components = q.components → p = q

theorem SpelledOnce.eq_of_compare {paths : List Path} (h : SpelledOnce paths) {p q : Path}
    (hp : p ∈ paths) (hq : q ∈ paths) (hpq : compare p q = .eq) : p = q :=
  h p hp q hq ((Path.compare_eq_iff p q).mp hpq)

/-- The call lists every path whose class is another than before. No two paths hold classes of one
name, every class read is from a file, and a name is resolved to a class that some path holds, or to
one without a file. -/
structure IndexCall.Tells (k : IndexCall) (paths : List Path) (old : Path → Option JvmClass) :
    Prop where
  listed : ∀ f ∈ k.files, f ∈ paths
  told : ∀ p ∈ paths, p ∉ k.files → k.holds p = old p
  distinct : ∀ p ∈ paths, ∀ q ∈ paths, ∀ x y, k.holds p = some x → k.holds q = some y →
    x.name = y.name → p = q
  located : ∀ p ∈ paths, ∀ x, k.holds p = some x → x.isLocated = true
  resolved : ∀ n, (k.source.resolve n).isLocated = true →
    ∃ p ∈ paths, k.holds p = some (k.source.resolve n)

namespace Catalog

/-- The catalogue knows what some paths hold: by file, as vertices, and as the only vertices from
files and the only ones that import anything. -/
structure Mirrors (c : Catalog) (paths : List Path) (old : Path → Option JvmClass) : Prop where
  byFile : ∀ p ∈ paths, c.byFile.find? p = old p
  vertex : ∀ p ∈ paths, ∀ x, old p = some x → c.graph.classOf? x.name = some x
  held : ∀ a x, c.graph.classOf? a = some x → x.isLocated = true → ∃ p ∈ paths, old p = some x
  links : ∀ a b, b ∈ c.graph.importsOf a →
    ∃ x, c.graph.classOf? a = some x ∧ x.isLocated = true ∧ b ∈ x.imports.toList
  wellFormed : c.graph.WellFormed

def Listed (files : List Path) (p : Path) : Prop := ∃ f ∈ files, compare p f = .eq

section Note

variable (h : Path → Option JvmClass) (l : List Path) (c : Catalog)

theorem byFile_foldl_note_of_unlisted (p : Path) (hp : ¬Listed l p) :
    (l.foldl (fun c f => c.note f (h f)) c).byFile.find? p = c.byFile.find? p := by
  induction l generalizing c with
  | nil => rfl
  | cons f l ih =>
    have hf : compare p f ≠ .eq := fun hf => hp ⟨f, List.mem_cons_self, hf⟩
    have hl : ¬Listed l p := fun ⟨g, hg, hpg⟩ => hp ⟨g, List.mem_cons_of_mem f hg, hpg⟩
    rw [List.foldl_cons, ih _ hl, byFile_note, if_neg hf]

theorem byFile_foldl_note_of_listed (p : Path) (hp : Listed l p) :
    ∃ f ∈ l, compare p f = .eq ∧
      (l.foldl (fun c f => c.note f (h f)) c).byFile.find? p = h f := by
  induction l generalizing c with
  | nil =>
    obtain ⟨f, hf, -⟩ := hp
    cases hf
  | cons f l ih =>
    by_cases hl : Listed l p
    · obtain ⟨g, hg, hpg, hfind⟩ := ih (c.note f (h f)) hl
      exact ⟨g, List.mem_cons_of_mem f hg, hpg, hfind⟩
    · obtain ⟨g, hg, hpg⟩ := hp
      have hgf : g = f := (List.mem_cons.mp hg).resolve_right fun hgl => hl ⟨g, hgl, hpg⟩
      refine ⟨f, List.mem_cons_self, hgf ▸ hpg, ?_⟩
      rw [List.foldl_cons, byFile_foldl_note_of_unlisted h l _ p hl, byFile_note,
        if_pos (hgf ▸ hpg)]

theorem contains_note (f : Path) (now : Option JvmClass) (a : String) :
    (c.note f now).graph.contains a = true ↔ c.graph.contains a = true ∧
      ∀ x, c.byFile.find? f = some x → x.name = a → now.map (·.name) = some a := by
  rw [graph_note]
  cases hx : c.byFile.find? f with
  | none => simp
  | some x =>
    simp only [Option.some.injEq, forall_eq']
    by_cases hn : now.map (·.name) = some x.name
    · rw [if_pos hn]
      exact ⟨fun hc => ⟨hc, fun hxa => hxa ▸ hn⟩, And.left⟩
    · rw [if_neg hn, ImportGraph.contains_remove]
      constructor
      · rintro ⟨ha, hc⟩
        exact ⟨hc, fun hxa => absurd hxa.symm ha⟩
      · rintro ⟨hc, hxa⟩
        refine ⟨?_, hc⟩
        rintro rfl
        exact hn (hxa rfl)

/-- Noting files takes out just the classes that a file was known to hold and does not hold now. A
path that is listed again is known to hold what it was read as before. -/
theorem contains_foldl_note (a : String) :
    (l.foldl (fun c f => c.note f (h f)) c).graph.contains a = true ↔
      c.graph.contains a = true ∧
      (∀ f ∈ l, ∀ x, c.byFile.find? f = some x → x.name = a → (h f).map (·.name) = some a) ∧
      l.Pairwise fun f g => compare g f = .eq → (h f).map (·.name) = some a →
        (h g).map (·.name) = some a := by
  induction l generalizing c with
  | nil => simp
  | cons f l ih =>
    rw [List.foldl_cons, ih, contains_note, List.pairwise_cons]
    constructor
    · rintro ⟨⟨hc, hhead⟩, htail, hpair⟩
      have hagain (g : Path) (hg : g ∈ l) (hgf : compare g f = .eq)
          (hf : (h f).map (·.name) = some a) : (h g).map (·.name) = some a := by
        obtain ⟨x, hx, hxa⟩ := Option.map_eq_some_iff.mp hf
        exact htail g hg x (by rw [byFile_note, if_pos hgf, hx]) hxa
      refine ⟨hc, ?_, hagain, hpair⟩
      intro g hg x hx hxa
      by_cases hgf : compare g f = .eq
      · have hname := hhead x (by rw [← SortedMap.find_congr c.byFile g f hgf, hx]) hxa
        rcases List.mem_cons.mp hg with rfl | hg
        · exact hname
        · exact hagain g hg hgf hname
      · have hne : g ≠ f := fun he => hgf (he ▸ ReflOrd.compare_self)
        refine htail g ((List.mem_cons.mp hg).resolve_left hne) x ?_ hxa
        rw [byFile_note, if_neg hgf, hx]
    · rintro ⟨hc, hall, hagain, hpair⟩
      refine ⟨⟨hc, hall f List.mem_cons_self⟩, ?_, hpair⟩
      intro g hg x hx hxa
      rw [byFile_note] at hx
      split at hx
      · next hgf => exact hagain g hg hgf (by rw [hx, Option.map_some, hxa])
      · exact hall g (List.mem_cons_of_mem f hg) x hx hxa

variable (k : IndexCall)

theorem listed_ordered (p : Path) : Listed k.ordered p ↔ Listed k.files p := by
  simp only [Listed, k.mem_ordered]

theorem byFile_noted_of_unlisted (p : Path) (hp : ¬Listed k.files p) :
    (c.noted k).byFile.find? p = c.byFile.find? p :=
  byFile_foldl_note_of_unlisted k.holds k.ordered c p (mt (listed_ordered k p).mp hp)

theorem byFile_noted_of_listed (p : Path) (hp : Listed k.files p) :
    ∃ f ∈ k.files, compare p f = .eq ∧ (c.noted k).byFile.find? p = k.holds f := by
  obtain ⟨f, hf, hpf, hfind⟩ := byFile_foldl_note_of_listed k.holds k.ordered c p
    ((listed_ordered k p).mpr hp)
  exact ⟨f, (k.mem_ordered f).mp hf, hpf, hfind⟩

/-- A class stays when the listed files are noted, unless one of them was known to hold it and does
not hold it now. A file that is gone was not read before in the same call. -/
theorem contains_noted_iff (a : String) :
    (c.noted k).graph.contains a = true ↔ c.graph.contains a = true ∧
      (∀ f ∈ k.files, ∀ x, c.byFile.find? f = some x → x.name = a →
        (k.holds f).map (·.name) = some a) ∧
      k.files.Pairwise fun f g => k.present g = true → compare g f = .eq →
        (k.holds f).map (·.name) = some a → (k.holds g).map (·.name) = some a := by
  have hpresent (f : Path) (hf : (k.holds f).map (·.name) = some a) : k.present f = true := by
    obtain ⟨x, hx, -⟩ := Option.map_eq_some_iff.mp hf
    exact (k.parse_of_holds f x hx).1
  have hgone (f : Path) (hf : f ∈ k.files.filter fun f => !k.present f) :
      (k.holds f).map (·.name) ≠ some a := by
    intro hname
    simpa [hpresent f hname] using (List.mem_filter.mp hf).2
  rw [noted, contains_foldl_note]
  simp only [k.mem_ordered]
  rw [IndexCall.ordered, List.pairwise_append]
  refine and_congr_right fun _ => and_congr_right fun _ => ?_
  constructor
  · rintro ⟨-, hpair, -⟩
    rw [List.pairwise_filter] at hpair
    exact hpair.imp fun himp hg hgf hname => himp (hpresent _ hname) hg hgf hname
  · intro hpair
    refine ⟨?_, ?_, fun f hf g _ _ hname => absurd hname (hgone f hf)⟩
    · exact List.pairwise_of_forall_mem_list fun f hf g _ _ hname => absurd hname (hgone f hf)
    · rw [List.pairwise_filter]
      exact hpair.imp fun himp _ hg hgf hname => himp hg hgf hname

end Note

section Mirrors

variable {c : Catalog} {k : IndexCall} {paths : List Path} {old : Path → Option JvmClass}

theorem mirrors_empty : Catalog.empty.Mirrors paths fun _ => none where
  byFile p _ := rfl
  vertex p _ x h := by cases h
  held a x h := by cases h
  links a b h := by cases h
  wellFormed := ImportGraph.wellFormed_empty

theorem byFile_noted (hp : SpelledOnce paths) (hk : k.Tells paths old) (c : Catalog) (p : Path)
    (hpp : p ∈ paths) :
    (c.noted k).byFile.find? p = if p ∈ k.files then k.holds p else c.byFile.find? p := by
  split
  · next hpf =>
    obtain ⟨f, hf, hcompare, hfind⟩ := byFile_noted_of_listed c k p ⟨p, hpf, ReflOrd.compare_self⟩
    rwa [← hp.eq_of_compare hpp (hk.listed f hf) hcompare] at hfind
  · next hpf =>
    refine byFile_noted_of_unlisted c k p ?_
    rintro ⟨f, hf, hcompare⟩
    exact hpf (hp.eq_of_compare hpp (hk.listed f hf) hcompare ▸ hf)

theorem contains_noted (hp : SpelledOnce paths) (hk : k.Tells paths old) (c : Catalog)
    (a : String) :
    (c.noted k).graph.contains a = true ↔
      c.graph.contains a = true ∧ ∀ f ∈ k.files, ∀ x, c.byFile.find? f = some x → x.name = a →
        (k.holds f).map (·.name) = some a := by
  rw [contains_noted_iff]
  refine and_congr_right fun _ => and_iff_left ?_
  refine List.pairwise_of_forall_mem_list fun f hf g hg _ hgf hname => ?_
  rwa [hp.eq_of_compare (hk.listed g hg) (hk.listed f hf) hgf]

/-- What a listed path holds is found. -/
theorem find_found_of_holds (hk : k.Tells paths old) (p : Path) (x : JvmClass)
    (hp : p ∈ k.files) (hx : k.holds p = some x) : k.found.find? x.name = some x := by
  have hc : k.found.contains x.name = true :=
    (k.contains_found x.name).mpr ⟨p, hp, by rw [hx, Option.map_some]⟩
  obtain ⟨y, hy⟩ := Option.isSome_iff_exists.mp hc
  obtain ⟨hname, f, hf, hfy⟩ := k.find_found x.name y hy
  have hfp : f = p := hk.distinct f (hk.listed f hf) p (hk.listed p hp) y x hfy hx hname
  rw [hfp, hx] at hfy
  rw [hy, Option.some.inj hfy]

/-- What an unlisted path holds is not found, and its class stays in the graph. -/
theorem kept_of_unlisted (hp : SpelledOnce paths) (hold : ∀ p ∈ paths, ∀ q ∈ paths, ∀ x y,
      old p = some x → old q = some y → x.name = y.name → p = q)
    (hk : k.Tells paths old) (hc : c.Mirrors paths old) (p : Path) (x : JvmClass)
    (hpp : p ∈ paths) (hpf : p ∉ k.files) (hx : old p = some x) :
    k.found.find? x.name = none ∧ (c.noted k).graph.classOf? x.name = some x := by
  constructor
  · rw [Option.eq_none_iff_forall_ne_some]
    intro y hy
    obtain ⟨hname, f, hf, hfy⟩ := k.find_found x.name y hy
    have hxk : k.holds p = some x := by rw [hk.told p hpp hpf, hx]
    exact hpf (hk.distinct f (hk.listed f hf) p hpp y x hfy hxk hname ▸ hf)
  · have hvertex := hc.vertex p hpp x hx
    have hkept : (c.noted k).graph.contains x.name = true := by
      rw [contains_noted hp hk]
      refine ⟨(ImportGraph.contains_iff _ _).mpr ⟨x, hvertex⟩, ?_⟩
      intro f hf y hy hname
      rw [hc.byFile f (hk.listed f hf)] at hy
      exact absurd (hold f (hk.listed f hf) p hpp y x hy hx hname ▸ hf) hpf
    obtain ⟨y, hy⟩ := (ImportGraph.contains_iff _ _).mp hkept
    have hxy := (restricts_noted c k hc.wellFormed).classes _ y hy
    rw [hy, ← hxy, hvertex]

/-- Whatever a call resolves has no file: what the files hold is known already or listed. -/
theorem standIn_not_located (hk : k.Tells paths old) (hc : c.Mirrors paths old) (n : String) :
    (standIn (k.resolved c) n).file = none := by
  rw [Option.eq_none_iff_forall_ne_some]
  intro q hq
  obtain ⟨hs, hgraph, hfound⟩ := of_standIn_located c k hq
  rw [hs] at hq
  obtain ⟨p, hpp, hp⟩ := hk.resolved n (by rw [JvmClass.isLocated, hq]; rfl)
  by_cases hpf : p ∈ k.files
  · have hname := find_found_of_holds hk p _ hpf hp
    rw [k.resolve_name, hfound] at hname
    cases hname
  · rw [hk.told p hpp hpf] at hp
    have hv := hc.vertex p hpp _ hp
    rw [k.resolve_name] at hv
    simp [ImportGraph.contains_eq_isSome, hv] at hgraph

/-- A class from a file that is not found now but was noted is still held by its path. -/
theorem holds_of_noted (hp : SpelledOnce paths) (hk : k.Tells paths old) (hc : c.Mirrors paths old)
    (a : String) (x : JvmClass) (hf : k.found.find? a = none)
    (hn : (c.noted k).graph.classOf? a = some x) (hloc : x.isLocated = true) :
    ∃ p ∈ paths, k.holds p = some x := by
  have hcx := (restricts_noted c k hc.wellFormed).classes a x hn
  obtain ⟨p, hpp, hpx⟩ := hc.held a x hcx hloc
  refine ⟨p, hpp, ?_⟩
  by_cases hpf : p ∈ k.files
  · -- A listed file would have dropped the class, or have it found.
    have hkept := (contains_noted hp hk c a).mp ((ImportGraph.contains_iff _ a).mpr ⟨x, hn⟩)
    have hname := hkept.2 p hpf x (by rw [hc.byFile p hpp, hpx]) (hc.wellFormed.named a x hcx)
    obtain ⟨z, hz, hza⟩ := Option.map_eq_some_iff.mp hname
    have hfz := find_found_of_holds hk p z hpf hz
    rw [hza, hf] at hfz
    cases hfz
  · rw [hk.told p hpp hpf, hpx]

theorem held_index (hp : SpelledOnce paths) (hk : k.Tells paths old) (hc : c.Mirrors paths old)
    (a : String) (x : JvmClass) (hx : (c.index k).graph.classOf? a = some x)
    (hloc : x.isLocated = true) : ∃ p ∈ paths, k.holds p = some x := by
  rcases classOf_index_cases c k hx with hf | ⟨hf, hn⟩ | ⟨-, -, -, rfl⟩
  · obtain ⟨-, f, hfk, hfx⟩ := k.find_found a x hf
    exact ⟨f, hk.listed f hfk, hfx⟩
  · exact holds_of_noted hp hk hc a x hf hn hloc
  · rw [JvmClass.isLocated, standIn_not_located hk hc a] at hloc
    cases hloc

theorem links_index (hk : k.Tells paths old) (hc : c.Mirrors paths old) (a b : String)
    (hb : b ∈ (c.index k).graph.importsOf a) :
    ∃ x, (c.index k).graph.classOf? a = some x ∧ x.isLocated = true ∧ b ∈ x.imports.toList := by
  classical
  rw [classOf_index]
  rcases (mem_importsOf_index c k a b).mp hb with ⟨cls, hcls, hb⟩ | ⟨hnone, hb⟩
  · obtain ⟨-, f, hf, hfc⟩ := k.find_found a cls hcls
    exact ⟨cls, by simp [hcls], hk.located f (hk.listed f hf) cls hfc, hb⟩
  · obtain ⟨hbc, ha, -⟩ := ((restricts_noted c k hc.wellFormed).links a b).mp hb
    obtain ⟨x, hx, hloc, hbx⟩ := hc.links a b hbc
    obtain ⟨y, hy⟩ := (ImportGraph.contains_iff _ a).mp ha
    have hcy := (restricts_noted c k hc.wellFormed).classes a y hy
    rw [hx, Option.some.injEq] at hcy
    exact ⟨x, by simp [hnone, hy, hcy], hloc, hbx⟩

/-- A call that tells of every change brings the catalogue from the old holdings to the new. -/
theorem mirrors_index (hp : SpelledOnce paths) (hold : ∀ p ∈ paths, ∀ q ∈ paths, ∀ x y,
      old p = some x → old q = some y → x.name = y.name → p = q)
    (hk : k.Tells paths old) (hc : c.Mirrors paths old) : (c.index k).Mirrors paths k.holds := by
  classical
  have hstand := standIn_not_located hk hc
  refine ⟨?_, ?_, ?_, ?_, wellFormed_index c k hc.wellFormed⟩
  · intro p hpp
    rw [index, update_eq, byFile_linkAll _ _ (k.standIn_name c) _ fun e _ => Or.inr (hstand e.2)]
    rw [byFile_noted hp hk c p hpp, hc.byFile p hpp]
    split
    · rfl
    · next hpf => exact (hk.told p hpp hpf).symm
  · intro p hpp x hx
    rw [classOf_index]
    by_cases hpf : p ∈ k.files
    · simp [find_found_of_holds hk p x hpf hx]
    · rw [hk.told p hpp hpf] at hx
      obtain ⟨hfound, hnoted⟩ := kept_of_unlisted hp hold hk hc p x hpp hpf hx
      simp [hfound, hnoted]
  · exact held_index hp hk hc
  · exact links_index hk hc

end Mirrors

end Catalog

/-- What the paths held when the last of some calls was made; nothing before the first. -/
def lastHolds (calls : List IndexCall) : Path → Option JvmClass :=
  (calls.getLast?).elim (fun _ => none) IndexCall.holds

def Covered (paths : List Path) (calls : List IndexCall) : Prop :=
  ∀ done k, done ++ [k] <+: calls → k.Tells paths (lastHolds done)

def IndexCall.Keeps (k : IndexCall) (paths : List Path) (old : Path → Option JvmClass) : Prop :=
  ∀ p ∈ paths, p ∉ k.files → ∀ x, old p = some x → ∀ b ∈ x.imports.toList,
    ∀ f ∈ k.files, ∀ y, old f = some y → y.name = b → (k.holds f).map (·.name) = some b

def IndexCall.fresh (k : IndexCall) (paths : List Path) : IndexCall :=
  { k with files := paths.filter k.present }

namespace Catalog

def NoLeftover (c : Catalog) : Prop :=
  ∀ a x, c.graph.classOf? a = some x → x.isLocated = false → ∃ b, b ∈ c.graph.importersOf a

variable {c : Catalog} {k : IndexCall} {paths : List Path} {old : Path → Option JvmClass}

theorem lastHolds_append (calls : List IndexCall) (k : IndexCall) :
    lastHolds (calls ++ [k]) = k.holds := by
  simp [lastHolds]

theorem distinct_lastHolds {calls done : List IndexCall} (hc : Covered paths calls)
    (hd : done <+: calls) : ∀ p ∈ paths, ∀ q ∈ paths, ∀ x y, lastHolds done p = some x →
      lastHolds done q = some y → x.name = y.name → p = q := by
  -- Before the first call nothing is held; later on, the call before has the paths apart.
  cases done using List.reverseRecOn with
  | nil =>
    intro p _ q _ x y hx
    cases hx
  | append_singleton done k =>
    rw [lastHolds_append]
    exact (hc done k hd).distinct

theorem mirrors_ofCalls (hp : SpelledOnce paths) {calls : List IndexCall}
    (hc : Covered paths calls) (done : List IndexCall) (hd : done <+: calls) :
    (ofCalls done).Mirrors paths (lastHolds done) := by
  induction done using List.reverseRecOn with
  | nil => exact mirrors_empty
  | append_singleton done k ih =>
    have hdone : done <+: calls := (List.prefix_append done [k]).trans hd
    rw [ofCalls_append, lastHolds_append]
    exact mirrors_index hp (distinct_lastHolds hc hdone) (hc done k hd) (ih hdone)

/-- What a call has to spare can be told from the files alone. -/
theorem spares_iff_keeps (hp : SpelledOnce paths) (hold : ∀ p ∈ paths, ∀ q ∈ paths, ∀ x y,
      old p = some x → old q = some y → x.name = y.name → p = q)
    (hk : k.Tells paths old) (hc : c.Mirrors paths old) (hl : c.Linked) :
    c.Spares k ↔ k.Keeps paths old := by
  classical
  constructor
  · intro h p hpp hpf x hx b hb f hf y hy hyb
    obtain ⟨hfound, hnoted⟩ := kept_of_unlisted hp hold hk hc p x hpp hpf hx
    have hloc : x.isLocated = true := hk.located p hpp x (by rw [hk.told p hpp hpf, hx])
    have hindex : (c.index k).graph.classOf? x.name = some x := by
      rw [classOf_index, hfound, hnoted]
      simp
    -- The import is a vertex still, so no listed file has dropped its class.
    have hkept := (h x.name x hindex hloc hfound b hb).2
    have hknown : c.byFile.find? f = some y := by rw [hc.byFile f (hk.listed f hf), hy]
    exact ((contains_noted hp hk c b).mp hkept).2 f hf y hknown hyb
  · intro h a x hx hloc hfound b hb
    -- The class is held by a path that the call does not list, so it is an old one.
    have hnew := mirrors_index hp hold hk hc
    have hname : x.name = a := hnew.wellFormed.named a x hx
    obtain ⟨p, hpp, hpx⟩ := hnew.held a x hx hloc
    have hpf : p ∉ k.files := by
      intro hpf
      have hfx := find_found_of_holds hk p x hpf hpx
      rw [hname, hfound] at hfx
      cases hfx
    have hox : old p = some x := by rw [← hk.told p hpp hpf, hpx]
    obtain ⟨-, hnoted⟩ := kept_of_unlisted hp hold hk hc p x hpp hpf hox
    rw [hname] at hnoted
    refine ⟨(ImportGraph.contains_iff _ a).mpr ⟨x, hnoted⟩, ?_⟩
    rw [contains_noted hp hk]
    refine ⟨(hl a x (hname ▸ hc.vertex p hpp x hox) hloc b hb).1, ?_⟩
    intro f hf y hy hyb
    rw [hc.byFile f (hk.listed f hf)] at hy
    exact h p hpp hpf x hox b hb f hf y hy hyb

/-- In a linked catalogue the links are the imports of the classes in files. -/
theorem mem_importsOf_iff (hc : c.Mirrors paths old) (hl : c.Linked) (a b : String) :
    b ∈ c.graph.importsOf a ↔ ∃ p ∈ paths, ∃ x, old p = some x ∧ x.isLocated = true ∧
      x.name = a ∧ b ∈ x.imports.toList := by
  constructor
  · intro hb
    obtain ⟨x, hx, hloc, hbx⟩ := hc.links a b hb
    obtain ⟨p, hpp, hpx⟩ := hc.held a x hx hloc
    exact ⟨p, hpp, x, hpx, hloc, hc.wellFormed.named a x hx, hbx⟩
  · rintro ⟨p, hpp, x, hpx, hloc, rfl, hbx⟩
    have hx := hc.vertex p hpp x hpx
    exact (hc.wellFormed.mirrored _ _).mpr (hl _ x hx hloc b hbx).2

section Compare

variable {d : Catalog} (hc : c.Mirrors paths old) (hl : c.Linked) (hd : d.Mirrors paths old)
  (hm : d.Linked)

include hc hl hd hm

theorem mem_importersOf_congr (a b : String) :
    b ∈ c.graph.importersOf a ↔ b ∈ d.graph.importersOf a := by
  rw [← hc.wellFormed.mirrored, ← hd.wellFormed.mirrored, mem_importsOf_iff hc hl,
    mem_importsOf_iff hd hm]

/-- Both have the classes in files, and without leftovers the others are imports of these. -/
theorem contains_of_noLeftover (hn : c.NoLeftover) (a : String)
    (ha : c.graph.contains a = true) : d.graph.contains a = true := by
  obtain ⟨x, hx⟩ := (ImportGraph.contains_iff _ a).mp ha
  by_cases hloc : x.isLocated = true
  · obtain ⟨p, hpp, hpx⟩ := hc.held a x hx hloc
    have hdx := hd.vertex p hpp x hpx
    rw [hc.wellFormed.named a x hx] at hdx
    exact (ImportGraph.contains_iff _ a).mpr ⟨x, hdx⟩
  · obtain ⟨b, hb⟩ := hn a x hx (by simpa using hloc)
    exact ImportGraph.contains_of_mem_importersOf _ a b
      ((mem_importersOf_congr hc hl hd hm a b).mp hb)

theorem keys_dependents_eq (hn : c.NoLeftover) (hno : d.NoLeftover) (seeds : List String) :
    (c.dependents seeds).keys = (d.dependents seeds).keys := by
  have hedge : c.graph.Affects = d.graph.Affects := by
    rw [ImportGraph.Affects, ImportGraph.Affects]
    congr 1
    funext a b
    exact propext (mem_importersOf_congr hc hl hd hm a b)
  have hvertex (a : String) : c.graph.contains a = true ↔ d.graph.contains a = true :=
    ⟨contains_of_noLeftover hc hl hd hm hn a, contains_of_noLeftover hd hm hc hl hno a⟩
  refine SortedMap.keys_ext _ _ (ImportGraph.sorted_dependents _ seeds)
    (ImportGraph.sorted_dependents _ seeds) ?_
  intro n
  rw [dependents, dependents, ImportGraph.contains_dependents _ hc.wellFormed,
    ImportGraph.contains_dependents _ hd.wellFormed, hedge]
  simp only [hvertex]

/-- A leftover depends on itself here and on nothing there. -/
theorem noLeftover_of_keys_eq (hno : d.NoLeftover)
    (h : ∀ seeds, (c.dependents seeds).keys = (d.dependents seeds).keys) : c.NoLeftover := by
  intro a x hx hloc
  have hself : a ∈ (c.dependents [a]).keys := by
    rw [SortedMap.mem_keys_iff, dependents, ImportGraph.contains_dependents _ hc.wellFormed]
    exact ⟨a, List.mem_singleton_self a, (ImportGraph.contains_iff _ a).mpr ⟨x, hx⟩,
      Relation.ReflTransGen.refl⟩
  rw [h, SortedMap.mem_keys_iff, dependents,
    ImportGraph.contains_dependents _ hd.wellFormed] at hself
  -- A change to it reaches it there as well, so it is a vertex there, and not from a file.
  obtain ⟨s, hs, hds, -⟩ := hself
  rw [List.mem_singleton.mp hs] at hds
  obtain ⟨y, hy⟩ := (ImportGraph.contains_iff _ a).mp hds
  have hyloc : y.isLocated = false := by
    by_contra hyloc
    obtain ⟨p, hpp, hpy⟩ := hd.held a y hy (by simpa using hyloc)
    have hcy := hc.vertex p hpp y hpy
    rw [hd.wellFormed.named a y hy, hx, Option.some.injEq] at hcy
    exact hyloc (hcy ▸ hloc)
  obtain ⟨b, hb⟩ := hno a y hy hyloc
  exact ⟨b, (mem_importersOf_congr hc hl hd hm a b).mpr hb⟩

end Compare

theorem tells_fresh (hk : k.Tells paths old) : (k.fresh paths).Tells paths fun _ => none where
  listed f hf := (List.mem_filter.mp hf).1
  told p hpp hpf := by
    have hgone : k.present p = false := by
      simpa [IndexCall.fresh, hpp] using hpf
    simp [IndexCall.holds, IndexCall.fresh, hgone]
  distinct := hk.distinct
  located := hk.located
  resolved := hk.resolved

/-- From an empty catalogue, what is not found is resolved and has no file. -/
theorem find_found_of_located (hk : k.Tells paths fun _ => none) (a : String) (x : JvmClass)
    (hx : (Catalog.empty.index k).graph.classOf? a = some x) :
    k.found.find? a = some x ∨ x.isLocated = false ∧ k.Wants a := by
  rcases classOf_index_cases .empty k hx with hf | ⟨-, hn⟩ | ⟨-, -, hw, rfl⟩
  · exact Or.inl hf
  · have hnone := (restricts_noted .empty k ImportGraph.wellFormed_empty).classes a x hn
    cases hnone
  · rw [JvmClass.isLocated, standIn_not_located hk mirrors_empty a]
    exact Or.inr ⟨rfl, hw⟩

theorem linked_fresh (hk : k.Tells paths fun _ => none) : (Catalog.empty.index k).Linked := by
  rw [linked_index_iff .empty k ImportGraph.wellFormed_empty linked_empty]
  intro a x hx hloc hfound
  rcases find_found_of_located hk a x hx with h | ⟨h, -⟩
  · rw [hfound] at h
    cases h
  · rw [hloc] at h
    cases h

theorem noLeftover_fresh (hk : k.Tells paths fun _ => none) :
    (Catalog.empty.index k).NoLeftover := by
  intro a x hx hloc
  rcases find_found_of_located hk a x hx with h | ⟨-, b, cls, hcls, ha⟩
  · obtain ⟨-, f, hf, hfx⟩ := k.find_found a x h
    rw [hk.located f (hk.listed f hf) x hfx] at hloc
    cases hloc
  · have hb := (mem_importsOf_index .empty k b a).mpr (Or.inl ⟨cls, hcls, ha⟩)
    exact ⟨b, ((wellFormed_index .empty k ImportGraph.wellFormed_empty).mirrored b a).mp hb⟩

/-- In a run that lists every change, the links are kept just when no listed path stops holding
what an unlisted one imports. -/
theorem linked_iff_keeps (hp : SpelledOnce paths) (calls : List IndexCall)
    (hc : Covered paths calls) :
    (∀ done, done <+: calls → (ofCalls done).Linked) ↔
      ∀ done k, done ++ [k] <+: calls → k.Keeps paths (lastHolds done) := by
  have hkeeps (done : List IndexCall) (k : IndexCall) (hk : done ++ [k] <+: calls)
      (hl : (ofCalls done).Linked) :
      (ofCalls (done ++ [k])).Linked ↔ k.Keeps paths (lastHolds done) := by
    have hdone : done <+: calls := (List.prefix_append done [k]).trans hk
    rw [ofCalls_append, linked_index_iff _ k (wellFormed_ofCalls done) hl]
    exact spares_iff_keeps hp (distinct_lastHolds hc hdone) (hc done k hk)
      (mirrors_ofCalls hp hc done hdone) hl
  constructor
  · intro h done k hk
    have hdone : done <+: calls := (List.prefix_append done [k]).trans hk
    exact (hkeeps done k hk (h done hdone)).mp (h _ hk)
  · intro h done
    induction done using List.reverseRecOn with
    | nil => exact fun _ => linked_empty
    | append_singleton done k ih =>
      intro hk
      have hdone : done <+: calls := (List.prefix_append done [k]).trans hk
      exact (hkeeps done k hk (ih hdone)).mpr (h done k hk)

/-- While the links are kept, a change reaches the same classes as after one update with all files
just when no vertex without a file is left over. -/
theorem keys_eq_fresh_iff (hp : SpelledOnce paths) (calls : List IndexCall)
    (hc : Covered paths calls) (done : List IndexCall) (k : IndexCall)
    (hk : done ++ [k] <+: calls) (hl : (ofCalls (done ++ [k])).Linked) :
    (∀ seeds, ((ofCalls (done ++ [k])).dependents seeds).keys =
        ((Catalog.empty.index (k.fresh paths)).dependents seeds).keys) ↔
      (ofCalls (done ++ [k])).NoLeftover := by
  have htells := tells_fresh (hc done k hk)
  have hmirrors := mirrors_ofCalls hp hc _ hk
  rw [lastHolds_append] at hmirrors
  have hfresh : (Catalog.empty.index (k.fresh paths)).Mirrors paths k.holds :=
    mirrors_index hp (fun p _ q _ x y hx => by cases hx) htells mirrors_empty
  have hlf := linked_fresh htells
  have hnf := noLeftover_fresh htells
  exact ⟨noLeftover_of_keys_eq hmirrors hl hfresh hlf hnf,
    fun hn seeds => keys_dependents_eq hmirrors hl hfresh hlf hn hnf seeds⟩

/-- A run of updates keeps every link just when each call spares what it does not list. In a run
that lists every change, the catalogue is linked after every call and a change reaches the same
classes as after one update with all files, just when no listed path ever stops holding what an
unlisted one imports and no vertex without a file is ever left over. -/
theorem updates_agree_iff (calls : List IndexCall) :
    ((∀ done, done <+: calls → (ofCalls done).Linked) ↔
      ∀ done k, done ++ [k] <+: calls → (ofCalls done).Spares k) ∧
    ∀ paths, SpelledOnce paths → Covered paths calls →
      ((∀ done k, done ++ [k] <+: calls → (ofCalls (done ++ [k])).Linked ∧
          ∀ seeds, ((ofCalls (done ++ [k])).dependents seeds).keys =
            ((Catalog.empty.index (k.fresh paths)).dependents seeds).keys) ↔
        ∀ done k, done ++ [k] <+: calls →
          k.Keeps paths (lastHolds done) ∧ (ofCalls (done ++ [k])).NoLeftover) := by
  refine ⟨linked_ofCalls_iff calls, ?_⟩
  intro paths hp hc
  have hprefix : (∀ done k, done ++ [k] <+: calls → (ofCalls (done ++ [k])).Linked) →
      ∀ done, done <+: calls → (ofCalls done).Linked := by
    intro h done
    cases done using List.reverseRecOn with
    | nil => exact fun _ => linked_empty
    | append_singleton done k => exact h done k
  constructor
  · intro h done k hk
    have hl := hprefix fun done k hk => (h done k hk).1
    exact ⟨(linked_iff_keeps hp calls hc).mp hl done k hk,
      (keys_eq_fresh_iff hp calls hc done k hk (hl _ hk)).mp (h done k hk).2⟩
  · intro h done k hk
    have hl := (linked_iff_keeps hp calls hc).mpr fun done k hk => (h done k hk).1
    exact ⟨hl _ hk, (keys_eq_fresh_iff hp calls hc done k hk (hl _ hk)).mpr (h done k hk).2⟩

end Catalog

/-- Where no name is resolved to a file, the conditions on a call range over the paths only. -/
theorem IndexCall.tells_of_paths (k : IndexCall) (paths : List Path)
    (old : Path → Option JvmClass) (hr : ∀ n, (k.source.resolve n).isLocated = false)
    (hlisted : ∀ f ∈ k.files, f ∈ paths)
    (htold : ∀ p ∈ paths, p ∉ k.files → k.holds p = old p)
    (hlocated : ∀ p ∈ paths, ((k.holds p).all fun x => x.isLocated) = true)
    (hdistinct : ∀ p ∈ paths, ∀ q ∈ paths, (k.holds p).isSome = true →
      (k.holds p).map (·.name) = (k.holds q).map (·.name) → p = q) :
    k.Tells paths old where
  listed := hlisted
  told := htold
  distinct p hp q hq x y hx hy hname := by
    refine hdistinct p hp q hq (by rw [hx]; rfl) ?_
    rw [hx, hy, Option.map_some, Option.map_some, hname]
  located p hp x hx := by
    have h := hlocated p hp
    rwa [hx] at h
  resolved n hn := by
    rw [hr n] at hn
    cases hn

theorem covered_pair (paths : List Path) (k l : IndexCall) (hk : k.Tells paths fun _ => none)
    (hl : l.Tells paths k.holds) : Covered paths [k, l] :=
  forall_steps_pair (fun done (m : IndexCall) => m.Tells paths (lastHolds done)) k l hk hl

namespace Move

def importer : JvmClass := .ofImports "A" ["B"] true (some ⟨"c/A.class"⟩)

def imported (file : Path) : JvmClass := .ofImports "B" [] false (some file)

def paths : List Path := [⟨"c/A.class"⟩, ⟨"c/B.class"⟩, ⟨"d/B.class"⟩]

def first : IndexCall :=
  .ofHoldings [(⟨"c/A.class"⟩, importer), (⟨"c/B.class"⟩, imported ⟨"c/B.class"⟩)]
    (by decide) [⟨"c/A.class"⟩, ⟨"c/B.class"⟩]

def second : IndexCall :=
  .ofHoldings [(⟨"c/A.class"⟩, importer), (⟨"d/B.class"⟩, imported ⟨"d/B.class"⟩)]
    (by decide) [⟨"d/B.class"⟩, ⟨"c/B.class"⟩]

def rewritten : IndexCall :=
  .ofHoldings [(⟨"c/A.class"⟩, importer),
      (⟨"c/B.class"⟩, { imported ⟨"c/B.class"⟩ with isTest := true })]
    (by decide) [⟨"c/B.class"⟩]

theorem spelledOnce_paths : SpelledOnce paths := by
  unfold SpelledOnce
  decide

theorem tells_first : first.Tells paths fun _ => none :=
  IndexCall.tells_of_paths first paths _ (fun _ => rfl) (by decide) (by decide)
    (by decide) (by decide)

theorem tells_second : second.Tells paths first.holds :=
  IndexCall.tells_of_paths second paths _ (fun _ => rfl) (by decide) (by decide)
    (by decide) (by decide)

theorem tells_rewritten : rewritten.Tells paths first.holds :=
  IndexCall.tells_of_paths rewritten paths _ (fun _ => rfl) (by decide) (by decide)
    (by decide) (by decide)

end Move

namespace Catalog

/-- Where an unlisted class imports what a listed file stops holding, the link is lost: a change to
the moved class no longer reaches its importer. -/
theorem moved_class_loses_importer :
    SpelledOnce Move.paths ∧ Covered Move.paths [Move.first, Move.second] ∧
      ¬(ofCalls [Move.first, Move.second]).Linked ∧
      ((ofCalls [Move.first, Move.second]).dependents ["B"]).keys = ["B"] ∧
      ((Catalog.empty.index (Move.second.fresh Move.paths)).dependents ["B"]).keys =
        ["A", "B"] := by
  refine ⟨Move.spelledOnce_paths, covered_pair _ _ _ Move.tells_first Move.tells_second, ?_, ?_⟩
  · intro h
    have hlost : (ofCalls [Move.first, Move.second]).graph.importersOf "B" = [] := by
      decide +kernel
    have hlink := h "A" Move.importer (by decide +kernel) (by decide +kernel) "B"
      (by decide +kernel)
    rw [hlost] at hlink
    exact List.not_mem_nil hlink.2
  · decide +kernel

theorem noLeftover_of_located (c : Catalog)
    (h : ∀ e ∈ c.graph.vertices.entries, e.2.jvmClass.isLocated = true) : c.NoLeftover := by
  intro a x hx hloc
  obtain ⟨v, hv, rfl⟩ := Option.map_eq_some_iff.mp hx
  obtain ⟨j, -, hm⟩ := SortedMap.mem_of_find _ a v hv
  rw [h (j, v) hm] at hloc
  cases hloc

/-- Where the imported class only changes in its file, its importer stays. -/
theorem rewritten_class_keeps_importer :
    SpelledOnce Move.paths ∧ Covered Move.paths [Move.first, Move.rewritten] ∧
      ∀ done k, done ++ [k] <+: [Move.first, Move.rewritten] →
        (ofCalls (done ++ [k])).Linked ∧
          ∀ seeds, ((ofCalls (done ++ [k])).dependents seeds).keys =
            ((Catalog.empty.index (k.fresh Move.paths)).dependents seeds).keys := by
  have hp := Move.spelledOnce_paths
  have hc := covered_pair _ _ _ Move.tells_first Move.tells_rewritten
  refine ⟨hp, hc, ((updates_agree_iff [Move.first, Move.rewritten]).2 Move.paths hp hc).mpr ?_⟩
  apply forall_steps_pair
  · refine ⟨?_, noLeftover_of_located _ (by decide +kernel)⟩
    intro p _ _ x hx
    cases hx
  · refine ⟨?_, noLeftover_of_located _ (by decide +kernel)⟩
    intro p _ _ x _ b _ f hf y hy hyb
    have hsame : ∀ f ∈ Move.rewritten.files,
        (Move.rewritten.holds f).map (·.name) = (Move.first.holds f).map (·.name) := by
      decide +kernel
    have hy' : Move.first.holds f = some y := hy
    rw [hsame f hf, hy', Option.map_some, hyb]

end Catalog

end Retest
