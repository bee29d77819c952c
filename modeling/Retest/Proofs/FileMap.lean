import Retest.Proofs.CatalogAgreement
import Retest.Proofs.FileTree

namespace Retest
open Std

/-- The files at one moment: which there are, and the classes behind files and names. A class that
is read comes from its own file, however the path is spelled. A resolved class has the name asked
for, can be read, and is the one that its file holds, if it has one. -/
structure Disk where
  source : ClassSource
  present : Path → Bool
  parse_noLoop : ∀ p, (source.parse p).name ∉ (source.parse p).imports.toList
  located : ∀ p, (source.parse p).isUnparsable = false →
    ∃ f, (source.parse p).file = some f ∧ compare f p = .eq
  respelled : ∀ p q, compare p q = .eq → present p = true → present q = true →
    (source.parse p).isUnparsable = false →
      (source.parse q).isUnparsable = false ∧ (source.parse q).name = (source.parse p).name
  resolve_name : ∀ n, (source.resolve n).name = n
  readable : ∀ n, (source.resolve n).isUnparsable = false
  resolved : ∀ n p, (source.resolve n).file = some p →
    present p = true ∧ source.parse p = source.resolve n

namespace Disk

def call (d : Disk) (files : List Path) : IndexCall where
  source := d.source
  present := d.present
  files
  parse_noLoop := d.parse_noLoop
  resolve_name := d.resolve_name

section Tree

variable (tree : FileTree) (roots : List Path)

/-- A class that is read from a tree is what the bytes of its file decode to. -/
theorem read_of_parse (p : Path) (h : (ClassFile.parseFile tree p).isUnparsable = false) :
    ∃ bytes header rest, tree.read p = .ok bytes ∧
      ClassFile.readHeader ⟨bytes, 0⟩ = .ok (header, rest) ∧
      ClassFile.parseFile tree p = header.toClass (some p) := by
  rw [ClassFile.parseFile] at h ⊢
  cases hr : tree.read p with
  | error e =>
    rw [hr] at h
    cases h
  | ok bytes =>
    rw [hr] at h
    simp only [ClassFile.decode] at h ⊢
    cases hh : ClassFile.readHeader ⟨bytes, 0⟩ with
    | error e =>
      rw [hh] at h
      cases h
    | ok r => exact ⟨bytes, r.1, r.2, rfl, hh, by simp [Except.map]⟩

theorem parse_of_read (p : Path) (bytes : List UInt8) (header : ClassFile.Header)
    (rest : ClassFile.Cursor) (hr : tree.read p = .ok bytes)
    (hh : ClassFile.readHeader ⟨bytes, 0⟩ = .ok (header, rest)) :
    ClassFile.parseFile tree p = header.toClass (some p) := by
  simp only [ClassFile.parseFile, hr, ClassFile.decode, hh, Except.map]

/-- Two spellings of a path read the same file, where both lead anywhere. -/
theorem read_congr (p q : Path) (h : compare p q = .eq) (bytes : List UInt8)
    (hp : tree.read p = .ok bytes) (hq : tree.pathExists q = true) : tree.read q = .ok bytes := by
  rw [FileTree.read] at hp ⊢
  cases hlp : tree.locate p with
  | error e =>
    rw [hlp] at hp
    cases hp
  | ok names =>
    cases hlq : tree.locate q with
    | error e => simp [FileTree.pathExists, FileTree.node?, hlq] at hq
    | ok names' =>
      have hsame : names' = names := by
        rw [(tree.locate_eq p names hlp).2, (tree.locate_eq q names' hlq).2]
        exact (tree.spelledNames_congr p q h).symm
      rw [hlp] at hp
      rw [hsame]
      exact hp

/-- A name is resolved to a readable class in a file, or to one without a file. -/
theorem resolve_cases (n : String) : ClassFile.resolve tree roots n = .placeholder n ∨
    ∃ p, ClassFile.locate tree roots n = some p ∧
      (ClassFile.parseFile tree p).isUnparsable = false ∧
      ClassFile.resolve tree roots n = ClassFile.parseFile tree p := by
  rw [ClassFile.resolve]
  split
  · exact Or.inl rfl
  · next p hp =>
    simp only
    split
    · next h => exact Or.inr ⟨p, hp, by simpa using (Bool.and_eq_true_iff.mp h).1, rfl⟩
    · exact Or.inl rfl

def ofTree : Disk where
  source := ClassFile.source tree roots
  present := tree.pathExists
  parse_noLoop := noLoop_parseFile tree
  located p hp := by
    obtain ⟨_, header, _, -, -, hparse⟩ := read_of_parse tree p hp
    refine ⟨p, ?_, ReflOrd.compare_self⟩
    change (ClassFile.parseFile tree p).file = some p
    rw [hparse]
    rfl
  respelled p q hpq _ hq hp := by
    obtain ⟨bytes, header, rest, hread, hheader, hparse⟩ := read_of_parse tree p hp
    have hparse' := parse_of_read tree q bytes header rest (read_congr tree p q hpq bytes hread hq)
      hheader
    change (ClassFile.parseFile tree q).isUnparsable = false ∧
      (ClassFile.parseFile tree q).name = (ClassFile.parseFile tree p).name
    rw [hparse, hparse']
    exact ⟨rfl, rfl⟩
  resolve_name := name_resolve tree roots
  readable n := by
    change (ClassFile.resolve tree roots n).isUnparsable = false
    rcases resolve_cases tree roots n with h | ⟨p, -, hp, h⟩
    · rw [h]
      rfl
    · rw [h]
      exact hp
  resolved n p hp := by
    change (ClassFile.resolve tree roots n).file = some p at hp
    change tree.pathExists p = true ∧ ClassFile.parseFile tree p = ClassFile.resolve tree roots n
    rcases resolve_cases tree roots n with h | ⟨path, -, hpath, h⟩
    · rw [h] at hp
      cases hp
    · obtain ⟨bytes, header, _, hread, -, hparse⟩ := read_of_parse tree path hpath
      rw [h, hparse] at hp
      obtain rfl : path = p := Option.some.inj hp
      exact ⟨tree.pathExists_of_read path bytes hread, h.symm⟩

end Tree

section Holdings

variable (held : List (Path × JvmClass)) (h : ∀ e ∈ held, e.2.name ∉ e.2.imports.toList)

theorem parse_holdings (p : Path) : (IndexCall.ofHoldings held h []).source.parse p =
    ((held.find? fun e => e.1.same p).map (·.2)).getD (.unparsable p) := rfl

def ofHoldings (hf : ∀ e ∈ held, e.2.file = some e.1) : Disk where
  source := (IndexCall.ofHoldings held h []).source
  present := (IndexCall.ofHoldings held h []).present
  parse_noLoop := (IndexCall.ofHoldings held h []).parse_noLoop
  located p hp := by
    rw [parse_holdings] at hp ⊢
    cases he : held.find? fun e => e.1.same p with
    | none =>
      rw [he] at hp
      cases hp
    | some e =>
      have hsame : e.1.same p = true := by simpa using List.find?_some he
      exact ⟨e.1, hf e (List.mem_of_find?_eq_some he), by simpa [Path.same] using hsame⟩
  respelled p q hpq _ _ hp := by
    have hsame : (fun e : Path × JvmClass => e.1.same q) = fun e => e.1.same p := by
      funext e
      rw [Path.same, Path.same, TransCmp.congr_right hpq]
    rw [parse_holdings] at hp
    rw [parse_holdings, parse_holdings, hsame]
    cases he : held.find? fun e => e.1.same p with
    | none =>
      rw [he] at hp
      cases hp
    | some e =>
      rw [he] at hp
      exact ⟨hp, rfl⟩
  resolve_name n := rfl
  readable n := rfl
  resolved n p hp := by cases hp

end Holdings

variable (d : Disk) (files : List Path)

theorem located_of_holds (p : Path) (x : JvmClass) (h : (d.call files).holds p = some x) :
    ∃ f, x.file = some f ∧ compare f p = .eq := by
  obtain ⟨-, hread, rfl⟩ := (d.call files).parse_of_holds p x h
  exact d.located p hread

/-- Another spelling of a path holds a class of the same name, if it leads anywhere. -/
theorem holds_respelled {p q : Path} (hpq : compare p q = .eq) {x : JvmClass}
    (hx : (d.call files).holds p = some x) (hq : d.present q = true) :
    ∃ y, (d.call files).holds q = some y ∧ y.name = x.name := by
  obtain ⟨hp, hread, rfl⟩ := (d.call files).parse_of_holds p x hx
  obtain ⟨hread', hname⟩ := d.respelled p q hpq hp hq hread
  exact ⟨d.source.parse q, if_pos ⟨hq, hread'⟩, hname⟩

end Disk

namespace Catalog

section Noting

variable {h : Path → Option JvmClass} (l : List Path) (c : Catalog)

/-- The class found last under a name is the one that its file is noted for. -/
theorem byFile_foldl_note_of_found (a : String) (cls : JvmClass)
    (hl : ∀ f ∈ l, ∀ g ∈ l, compare f g = .eq → ∀ x, h f = some x →
      ∃ y, h g = some y ∧ y.name = x.name)
    (ha : (SortedMap.ofList ((l.filterMap h).map fun cls => (cls.name, cls))).find? a = some cls) :
    ∃ f ∈ l, h f = some cls ∧
      (l.foldl (fun c f => c.note f (h f)) c).byFile.find? f = some cls := by
  induction l using List.reverseRecOn with
  | nil => cases ha
  | append_singleton l g ih =>
    have hbefore (f : Path) (hf : f ∈ l) : f ∈ l ++ [g] := List.mem_append_left [g] hf
    have hlast : g ∈ l ++ [g] := List.mem_append_right l (List.mem_singleton_self g)
    have ih' := ih fun f hf k hk => hl f (hbefore f hf) k (hbefore k hk)
    -- A file that is noted again holds a class of the same name, which then is found last.
    have hkept (hother : ∀ y, h g = some y → y.name ≠ a)
        (hold : (SortedMap.ofList ((l.filterMap h).map fun cls => (cls.name, cls))).find? a =
          some cls) : ∃ f ∈ l ++ [g], h f = some cls ∧
            ((l ++ [g]).foldl (fun c f => c.note f (h f)) c).byFile.find? f = some cls := by
      obtain ⟨f, hf, hcls, hfind⟩ := ih' hold
      have hname : cls.name = a := by
        obtain ⟨e, he, hae, rfl⟩ := SortedMap.mem_of_find_ofList _ a cls hold
        obtain ⟨d, -, rfl⟩ := List.mem_map.mp he
        exact (LawfulEqOrd.eq_of_compare hae).symm
      have hfg : compare f g ≠ .eq := by
        intro hfg
        obtain ⟨y, hy, hyn⟩ := hl f (hbefore f hf) g hlast hfg cls hcls
        exact hother y hy (hyn.trans hname)
      refine ⟨f, hbefore f hf, hcls, ?_⟩
      rw [List.foldl_append, List.foldl_cons, List.foldl_nil, byFile_note, if_neg hfg, hfind]
    cases hg : h g with
    | none =>
      rw [List.filterMap_append, List.filterMap_cons_none hg, List.filterMap_nil,
        List.append_nil] at ha
      exact hkept (fun y hy => by rw [hg] at hy; cases hy) ha
    | some y =>
      have hinsert : SortedMap.ofList (((l ++ [g]).filterMap h).map fun cls => (cls.name, cls)) =
          (SortedMap.ofList ((l.filterMap h).map fun cls => (cls.name, cls))).insert y.name y := by
        rw [List.filterMap_append, List.filterMap_cons_some hg, List.filterMap_nil, List.map_append]
        exact List.foldl_append
      rw [hinsert, SortedMap.find_insert] at ha
      split at ha
      · next hay =>
        obtain rfl : y = cls := Option.some.inj ha
        refine ⟨g, hlast, hg, ?_⟩
        rw [List.foldl_append, List.foldl_cons, List.foldl_nil, byFile_note,
          if_pos ReflOrd.compare_self, hg]
      · next hay =>
        refine hkept (fun z hz hza => hay ?_) ha
        rw [hg] at hz
        rw [Option.some.inj hz, hza]
        exact ReflOrd.compare_self

end Noting

section StandIn

variable (resolved : SortedMap String JvmClass)

/-- A name without a vertex brings the file of its class, unless that is known already. -/
theorem byFile_ensure (c : Catalog) (name : String) (p : Path) :
    (c.ensure resolved name).1.byFile.find? p = (c.byFile.find? p).or
      (if c.graph.contains name = false ∧
          ((standIn resolved name).file.any fun f => (compare p f).isEq) = true
        then some (standIn resolved name) else none) := by
  by_cases hc : c.graph.contains name = true
  · rw [ensure, if_pos hc, if_neg (fun hh => by simp [hc] at hh), Option.or_none]
  · rw [ensure, if_neg hc]
    dsimp only
    cases hf : (standIn resolved name).file with
    | none =>
      have hnone : ((resolved.find? name).getD (.placeholder name)).file = none := hf
      simp [hnone]
    | some f =>
      have hsome : ((resolved.find? name).getD (.placeholder name)).file = some f := hf
      rw [hsome]
      change (if c.byFile.contains f then c.byFile
        else c.byFile.insert f (standIn resolved name)).find? p = _
      by_cases hpf : compare p f = .eq
      · have hcongr := SortedMap.find_congr c.byFile p f hpf
        cases hx : c.byFile.find? f with
        | some x => simp [SortedMap.contains, hx, hcongr]
        | none =>
          simp [SortedMap.contains, hx, hcongr, SortedMap.find_insert, hpf, hc]
      · cases hx : c.byFile.find? f with
        | some x => simp [SortedMap.contains, hx, hpf]
        | none => simp [SortedMap.contains, hx, SortedMap.find_insert, hpf]

variable (l : List (String × String))

/-- What is known of a file stays. -/
theorem byFile_linkAll_of_known (c : Catalog) (p : Path) (x : JvmClass)
    (h : c.byFile.find? p = some x) :
    (l.foldl (linkOne resolved) c).byFile.find? p = some x := by
  induction l generalizing c with
  | nil => exact h
  | cons e l ih =>
    refine ih (c.linkOne resolved e) ?_
    change (c.ensure resolved e.2).1.byFile.find? p = some x
    rw [byFile_ensure, h, Option.some_or]

/-- Whatever else is known afterwards is the class of a name that had no vertex. -/
theorem of_byFile_linkAll (hr : ∀ n, (standIn resolved n).name = n) (c : Catalog) (p : Path)
    (x : JvmClass) (h : (l.foldl (linkOne resolved) c).byFile.find? p = some x) :
    c.byFile.find? p = some x ∨ ∃ e ∈ l, c.graph.contains e.2 = false ∧
      x = standIn resolved e.2 ∧ ∃ f, x.file = some f ∧ compare p f = .eq := by
  induction l generalizing c with
  | nil => exact Or.inl h
  | cons e l ih =>
    rcases ih _ h with hx | ⟨d, hd, hno, hx⟩
    · change (c.ensure resolved e.2).1.byFile.find? p = some x at hx
      rw [byFile_ensure, Option.or_eq_some_iff] at hx
      rcases hx with hx | ⟨-, hx⟩
      · exact Or.inl hx
      · split at hx
        · next hnew =>
          obtain rfl : standIn resolved e.2 = x := Option.some.inj hx
          obtain ⟨f, hf, hpf⟩ := (Option.any_eq_true _ _).mp hnew.2
          exact Or.inr ⟨e, List.mem_cons_self, hnew.1, rfl, f, hf, by simpa using hpf⟩
        · cases hx
    · refine Or.inr ⟨d, List.mem_cons_of_mem e hd, ?_, hx⟩
      rw [Bool.eq_false_iff] at hno ⊢
      exact fun hc => hno ((contains_linkOne resolved hr c e d.2).mpr (Or.inl hc))

/-- The file of a class that comes in is known afterwards. -/
theorem exists_byFile_linkAll (hr : ∀ n, (standIn resolved n).name = n) (c : Catalog)
    (e : String × String) (he : e ∈ l) (hc : c.graph.contains e.2 = false) (f : Path)
    (hf : (standIn resolved e.2).file = some f) :
    ∃ x, (l.foldl (linkOne resolved) c).byFile.find? f = some x := by
  induction l generalizing c with
  | nil => cases he
  | cons d l ih =>
    by_cases hde : e.2 = d.2
    · have hknown : ∃ x, (c.linkOne resolved d).byFile.find? f = some x := by
        change ∃ x, (c.ensure resolved d.2).1.byFile.find? f = some x
        rw [byFile_ensure, ← hde, if_pos ⟨hc, by simp [hf]⟩]
        cases c.byFile.find? f with
        | none => exact ⟨_, rfl⟩
        | some x => exact ⟨x, rfl⟩
      obtain ⟨x, hx⟩ := hknown
      exact ⟨x, byFile_linkAll_of_known resolved l _ f x hx⟩
    · have hel : e ∈ l := (List.mem_cons.mp he).resolve_left fun he => hde (he ▸ rfl)
      refine ih _ hel ?_
      rw [Bool.eq_false_iff] at hc ⊢
      intro hnew
      rcases (contains_linkOne resolved hr c d e.2).mp hnew with hold | hsame
      · exact hc hold
      · exact hde hsame

end StandIn

end Catalog

end Retest
