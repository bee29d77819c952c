import Retest.Glob.Expansion
import Retest.Proofs.PathLookup

/-! What the steps of a path pattern stand for. A piece of a pattern without wildcards stands for
itself, so a pattern that is joined to a path without wildcards stands for the same pieces behind
that path. -/

namespace Retest
namespace Glob

theorem plainText_iff (tokens : List Token) (name : List Char) :
    plainText? tokens = some name ↔ tokens = name.map .char := by
  induction tokens generalizing name with
  | nil => cases name <;> simp [plainText?]
  | cons token tokens ih =>
    rw [plainText?, List.mapM_cons, ← plainText?]
    cases token <;> cases name <;> simp [Option.bind_eq_some_iff, ih, and_left_comm]

/-- A text without wildcards stands for itself. -/
theorem readTokens_plain (fuel : Nat) (s : List Char) (hs : isPattern s = false)
    (hfuel : s.length < fuel) : readTokens fuel s = some (s.map .char) := by
  fun_induction readTokens fuel s with
  | case1 s => exact absurd hfuel (Nat.not_lt_zero _)
  | case2 => rfl
  | case10 fuel c rest _ _ _ _ _ ih =>
    have hrest : isPattern rest = false := (Bool.or_eq_false_iff.mp hs).2
    rw [ih hrest (Nat.lt_of_succ_lt_succ hfuel)]
    rfl
  | _ => simp [isPattern] at hs

/-- And nothing else does. -/
theorem eq_of_readTokens (fuel : Nat) (s name : List Char)
    (h : readTokens fuel s = some (name.map .char)) : name = s := by
  fun_induction readTokens fuel s generalizing name with
  | case1 => cases h
  | case2 => simpa using h
  | case10 fuel c rest _ _ _ _ _ ih =>
    cases name with
    | nil => simp at h
    | cons d name =>
      obtain ⟨tokens, htokens, hcons⟩ := Option.map_eq_some_iff.mp h
      obtain ⟨hc, hrest⟩ := List.cons.inj hcons
      rw [ih name (hrest ▸ htokens), Token.char.inj hc]
  | _ => cases name <;> simp at h

def plainStep (piece : List Char) : Step := .name (piece.map .char)

theorem ofText_plain (piece : List Char) (h : isPattern piece = false) :
    Step.ofText? piece = some (plainStep piece) := by
  have hstars : piece ≠ ['*', '*'] := by
    rintro rfl
    exact absurd h (by decide)
  rw [Step.ofText?, if_neg hstars, tokensOf?, readTokens_plain _ piece h (Nat.lt_succ_self _)]
  rfl

theorem eq_of_ofText (piece name : List Char) (tokens : List Token)
    (h : Step.ofText? piece = some (.name tokens)) (hname : plainText? tokens = some name) :
    name = piece := by
  rw [Step.ofText?] at h
  split at h
  · cases h
  · obtain ⟨_, hread, heq⟩ := Option.map_eq_some_iff.mp h
    rw [Step.name.inj heq, (plainText_iff _ name).mp hname] at hread
    exact eq_of_readTokens _ piece name hread

def stepsOf? (text : List Char) : Option (List Step) :=
  (dropLastEmpty (Path.pieces text)).mapM Step.ofText?

/-- The pieces of a path that steps stand for. A wildcard stands for a name, and with `dots` for
the dots of a directory too. -/
inductive Matches (dots : Bool) : List Step → List (List Char) → Prop
  | done : Matches dots [] []
  | plain {tokens name rest l} (hplain : plainText? tokens = some name)
      (hrest : Matches dots rest l) : Matches dots (.name tokens :: rest) (name :: l)
  | wild {tokens rest l} {name : String} (hwild : plainText? tokens = none)
      (hname : Path.IsName name) (hfits : fits tokens name.toList = true)
      (hrest : Matches dots rest l) : Matches dots (.name tokens :: rest) (name.toList :: l)
  | dot {tokens rest l name} (hdots : dots = true) (hwild : plainText? tokens = none)
      (hname : name ∈ dotNames tokens) (hrest : Matches dots rest l) :
      Matches dots (.name tokens :: rest) (name.toList :: l)
  | again {rest l} (hrest : Matches dots (.anywhere :: rest) l) :
      Matches dots (.anywhere :: .anywhere :: rest) l
  | down {names : List String} (hsome : names ≠ []) (hnames : ∀ name ∈ names, Path.IsName name) :
      Matches dots [.anywhere] (names.map String.toList)
  | downTo {tokens rest l} {names : List String} {name : String}
      (hnames : ∀ name ∈ names, Path.IsName name) (hname : Path.IsName name)
      (hfits : fits tokens name.toList = true) (hrest : Matches dots rest l) :
      Matches dots (.anywhere :: .name tokens :: rest)
        (names.map String.toList ++ name.toList :: l)

def StandsFor (dots : Bool) (entry r : String) : Prop :=
  r.toList.head? ≠ some '/' ∧
    ∃ steps, stepsOf? entry.toList = some steps ∧ Matches dots steps (Path.pieces r.toList)

def Stays (entry : String) : Prop :=
  ∀ piece ∈ Path.pieces entry.toList, ∀ tokens, Step.ofText? piece = some (.name tokens) →
    ".." ∉ dotNames tokens

def Flat (steps : List Step) : Prop :=
  ∀ tokens, .name tokens ∈ steps → ∀ name, plainText? tokens = some name → '/' ∉ name

theorem forall_tokens_of_cons {P : List Token → Prop} {s : Step} {steps : List Step}
    (h : ∀ tokens, .name tokens ∈ s :: steps → P tokens) :
    ∀ tokens, .name tokens ∈ steps → P tokens :=
  fun tokens htokens => h tokens (List.mem_cons_of_mem s htokens)

theorem mem_dotNames (tokens : List Token) (name : String) (h : name ∈ dotNames tokens) :
    name = ".." ∨ name = "." := by
  rw [dotNames] at h
  split at h
  · simpa using (List.mem_filter.mp h).1
  · exact absurd h List.not_mem_nil

theorem parent_mem_dotNames : ".." ∈ dotNames (['.', '.'].map .char) := by
  simp [dotNames, fits, Token.accepts]

theorem noSlash_of_mem_dotNames (tokens : List Token) (name : String)
    (h : name ∈ dotNames tokens) : '/' ∉ name.toList := by
  rcases mem_dotNames tokens name h with rfl | rfl <;> decide

/-- What holds of names and of all that steps spell out holds of the pieces they stand for. -/
theorem forall_of_matches (P : List Char → Prop) (hnames : ∀ name, Path.IsName name → P name.toList)
    {dots : Bool} {steps : List Step} {l : List (List Char)} (h : Matches dots steps l)
    (hsteps : ∀ tokens, .name tokens ∈ steps →
      (∀ name, plainText? tokens = some name → P name) ∧
        ∀ name ∈ dotNames tokens, P name.toList) : ∀ piece ∈ l, P piece := by
  have hall (names : List String) (h : ∀ name ∈ names, Path.IsName name) :
      ∀ piece ∈ names.map String.toList, P piece :=
    List.forall_mem_map.mpr fun name hname => hnames name (h name hname)
  induction h with
  | done => exact fun piece hpiece => absurd hpiece List.not_mem_nil
  | plain hplain hrest ih =>
    exact List.forall_mem_cons.mpr
      ⟨(hsteps _ List.mem_cons_self).1 _ hplain, ih (forall_tokens_of_cons hsteps)⟩
  | wild hwild hname hfits hrest ih =>
    exact List.forall_mem_cons.mpr ⟨hnames _ hname, ih (forall_tokens_of_cons hsteps)⟩
  | dot hdots hwild hname hrest ih =>
    exact List.forall_mem_cons.mpr
      ⟨(hsteps _ List.mem_cons_self).2 _ hname, ih (forall_tokens_of_cons hsteps)⟩
  | again hrest ih => exact ih (forall_tokens_of_cons hsteps)
  | down hsome hdown => exact hall _ hdown
  | downTo hdown hname hfits hrest ih =>
    have hrest := ih (forall_tokens_of_cons (forall_tokens_of_cons hsteps))
    exact List.forall_mem_append.mpr
      ⟨hall _ hdown, List.forall_mem_cons.mpr ⟨hnames _ hname, hrest⟩⟩

theorem noSlash_of_matches {dots : Bool} {steps : List Step} {l : List (List Char)}
    (h : Matches dots steps l) (hflat : Flat steps) : ∀ piece ∈ l, '/' ∉ piece :=
  forall_of_matches ('/' ∉ ·) (fun _ hname => hname.noSlash) h fun tokens htokens =>
    ⟨hflat tokens htokens, noSlash_of_mem_dotNames tokens⟩

theorem matches_plain_append (dots : Bool) (front : List (List Char)) (steps : List Step)
    (l : List (List Char)) : Matches dots (front.map plainStep ++ steps) l ↔
      ∃ rest, l = front ++ rest ∧ Matches dots steps rest := by
  induction front generalizing l with
  | nil => simp
  | cons piece front ih =>
    have hplain : plainText? (piece.map .char) = some piece := (plainText_iff _ piece).mpr rfl
    constructor
    · intro h
      cases h with
      | plain hname hrest =>
        obtain ⟨rest, rfl, hsteps⟩ := (ih _).mp hrest
        rw [hplain] at hname
        exact ⟨rest, by rw [Option.some.inj hname]; rfl, hsteps⟩
      | wild hwild => simp [hplain] at hwild
      | dot _ hwild => simp [hplain] at hwild
    · rintro ⟨rest, rfl, hsteps⟩
      exact .plain hplain ((ih _).mpr ⟨rest, rfl, hsteps⟩)

theorem dropLastEmpty_subset (l : List (List Char)) : dropLastEmpty l ⊆ l := by
  rw [dropLastEmpty]
  split
  · exact List.dropLast_subset l
  · exact List.Subset.refl l

/-- Each step of a pattern comes from a piece between its slashes. -/
theorem exists_piece_of_mem (text : List Char) (steps : List Step) (h : stepsOf? text = some steps)
    (s : Step) (hs : s ∈ steps) : ∃ piece ∈ Path.pieces text, Step.ofText? piece = some s := by
  have hsubset := dropLastEmpty_subset (Path.pieces text)
  rw [stepsOf?] at h
  generalize dropLastEmpty (Path.pieces text) = l at h hsubset
  induction l generalizing steps with
  | nil =>
    cases h
    exact absurd hs List.not_mem_nil
  | cons piece l ih =>
    obtain ⟨hpiece, hl⟩ := List.cons_subset.mp hsubset
    simp only [List.mapM_cons, Option.bind_eq_bind, Option.bind_eq_some_iff] at h
    obtain ⟨first, hfirst, rest, hrest, hsteps⟩ := h
    cases hsteps
    rcases List.mem_cons.mp hs with rfl | hs
    · exact ⟨piece, hpiece, hfirst⟩
    · exact ih rest hs hrest hl

/-- Names that a pattern spells out stand between its slashes. -/
theorem flat_of_stepsOf (text : List Char) (steps : List Step) (h : stepsOf? text = some steps) :
    Flat steps := by
  intro tokens htokens name hname
  obtain ⟨piece, hpiece, hstep⟩ := exists_piece_of_mem text steps h _ htokens
  rw [eq_of_ofText piece name tokens hstep hname]
  exact Path.not_mem_slash_of_mem_pieces text piece hpiece

/-- What stays below a directory leads to no parent. -/
theorem ne_parent_of_matches {dots : Bool} {steps : List Step} {l : List (List Char)}
    (h : Matches dots steps l) (hstays : ∀ tokens, .name tokens ∈ steps → ".." ∉ dotNames tokens) :
    ∀ piece ∈ l, piece ≠ ['.', '.'] := by
  refine forall_of_matches (· ≠ ['.', '.']) (fun _ hname => hname.noDots) h ?_
  intro tokens htokens
  refine ⟨?_, ?_⟩
  · rintro name hname rfl
    rw [plainText_iff] at hname
    exact hstays tokens htokens (hname ▸ parent_mem_dotNames)
  · intro name hname hdots
    obtain rfl : name = ".." := String.toList_injective hdots
    exact hstays tokens htokens hname

theorem ne_nil_of_matches {dots : Bool} {steps : List Step} {l : List (List Char)}
    (h : Matches dots steps l) (hsteps : steps ≠ []) : l ≠ [] := by
  induction h with
  | done => exact absurd rfl hsteps
  | again hrest ih => exact ih (List.cons_ne_nil _ _)
  | down hsome => simpa using hsome
  | _ => simp

/-- Only an empty name pattern stands for an empty piece. -/
theorem head_of_matches {dots : Bool} {steps : List Step} {l : List (List Char)}
    (h : Matches dots steps l) (hhead : steps.head? ≠ some (.name [])) : l.head? ≠ some [] := by
  induction h with
  | done => simp
  | plain hplain =>
    intro hname
    obtain rfl : _ = [] := Option.some.inj hname
    exact hhead (by rw [(plainText_iff _ _).mp hplain]; rfl)
  | wild hwild hname => simpa using hname.nonempty
  | dot hdots hwild hname => rcases mem_dotNames _ _ hname with rfl | rfl <;> simp
  | again hrest ih => exact ih (by simp)
  | @down names hsome hnames =>
    cases names with
    | nil => exact absurd rfl hsome
    | cons name names => simpa using (hnames name List.mem_cons_self).nonempty
  | @downTo tokens rest l names name hnames hname =>
    cases names with
    | nil => simpa using hname.nonempty
    | cons first names => simpa using (hnames first List.mem_cons_self).nonempty

def body (p : Path) : List Char :=
  if p.isAbsolute then p.text.toList.drop 1 else p.text.toList

def origin (p : Path) : Path := if p.isAbsolute then ⟨"/"⟩ else ⟨"."⟩

theorem expand_eq (t : FileTree) (p : Path) : expand? t p = (stepsOf? (body p)).map fun steps =>
    follow t (p.text.toList.getLast? = some '/') steps (origin p) := rfl

theorem isPattern_eq_false (s : List Char) : isPattern s = false ↔ '*' ∉ s ∧ '?' ∉ s ∧ '[' ∉ s := by
  simp only [isPattern, List.any_eq_false, Bool.or_eq_true, decide_eq_true_eq, not_or]
  constructor
  · intro h
    exact ⟨fun hm => (h _ hm).1.1 rfl, fun hm => (h _ hm).1.2 rfl, fun hm => (h _ hm).2 rfl⟩
  · rintro ⟨h1, h2, h3⟩ c hc
    refine ⟨⟨?_, ?_⟩, ?_⟩ <;> (rintro rfl; contradiction)

theorem isPattern_piece (s piece : List Char) (hs : isPattern s = false)
    (h : piece ∈ Path.pieces s) : isPattern piece = false := by
  have hmem (c : Char) (hc : c ∈ piece) : c ∈ s :=
    ((Path.mem_pieces_iff s c).mp ⟨piece, h, hc⟩).1
  rw [isPattern_eq_false] at hs ⊢
  exact ⟨fun hc => hs.1 (hmem _ hc), fun hc => hs.2.1 (hmem _ hc), fun hc => hs.2.2 (hmem _ hc)⟩

/-- A path that is not empty goes up to a slash when something is joined to it. -/
theorem exists_text_join (base : Path) (htext : base.text.toList ≠ []) :
    ∃ front, front ⊆ base.text.toList ∧ ∀ tail : String, tail.toList.head? ≠ some '/' →
      (base.join tail).text.toList = front ++ '/' :: tail.toList := by
  by_cases hslash : base.text.toList.getLast? = some '/'
  · obtain ⟨front, hfront⟩ := List.getLast?_eq_some_iff.mp hslash
    refine ⟨front, by simp [hfront], ?_⟩
    intro tail htail
    rw [Path.join, if_neg htail, if_pos (Or.inr hslash), String.toList_append, hfront]
    simp
  · refine ⟨base.text.toList, List.Subset.refl _, ?_⟩
    intro tail htail
    rw [Path.join, if_neg htail, if_neg (not_or.mpr ⟨htext, hslash⟩)]
    simp

/-- The pieces of what is joined to a path come after pieces of the path. -/
theorem exists_front (base : Path) (hbase : isPattern base.text.toList = false) :
    ∃ front, (∀ piece ∈ front, isPattern piece = false) ∧
      ∀ tail : String, tail.toList.head? ≠ some '/' →
        Path.pieces (body (base.join tail)) = front ++ Path.pieces tail.toList := by
  by_cases htext : base.text.toList = []
  · refine ⟨[], fun piece hpiece => absurd hpiece List.not_mem_nil, ?_⟩
    intro tail htail
    simp [Path.join, htail, htext, body, Path.isAbsolute]
  obtain ⟨front, hfront, hjoin⟩ := exists_text_join base htext
  have hbody (tail : String) (htail : tail.toList.head? ≠ some '/') :
      body (base.join tail) =
        if front.head? = some '/' then front.drop 1 ++ '/' :: tail.toList
        else if front = [] then tail.toList else front ++ '/' :: tail.toList := by
    cases front with
    | nil => simp [body, Path.isAbsolute, hjoin tail htail]
    | cons c front => simp [body, Path.isAbsolute, hjoin tail htail]
  have hplain (l : List Char) (hl : l ⊆ front) : isPattern l = false := by
    rw [isPattern_eq_false] at hbase ⊢
    exact ⟨fun h => hbase.1 (hfront (hl h)), fun h => hbase.2.1 (hfront (hl h)),
      fun h => hbase.2.2 (hfront (hl h))⟩
  by_cases habsolute : front.head? = some '/'
  · refine ⟨Path.pieces (front.drop 1), fun piece hpiece => ?_, ?_⟩
    · exact isPattern_piece _ piece (hplain _ (List.drop_subset 1 front)) hpiece
    · intro tail htail
      rw [hbody tail htail, if_pos habsolute, Path.pieces_append_slash]
  by_cases hnil : front = []
  · refine ⟨[], fun piece hpiece => absurd hpiece List.not_mem_nil, ?_⟩
    intro tail htail
    rw [hbody tail htail, if_neg habsolute, if_pos hnil]
    rfl
  · refine ⟨Path.pieces front, fun piece hpiece => ?_, ?_⟩
    · exact isPattern_piece _ piece (hplain _ (List.Subset.refl _)) hpiece
    · intro tail htail
      rw [hbody tail htail, if_neg habsolute, if_neg hnil, Path.pieces_append_slash]

theorem mapM_plain (front : List (List Char)) (h : ∀ piece ∈ front, isPattern piece = false) :
    front.mapM Step.ofText? = some (front.map plainStep) := by
  induction front with
  | nil => rfl
  | cons piece front ih =>
    obtain ⟨hpiece, hfront⟩ := List.forall_mem_cons.mp h
    simp [ofText_plain piece hpiece, ih hfront]

/-- Pieces without wildcards in front of a pattern are steps that spell them out. -/
theorem stepsOf_join (base : Path) (front : List (List Char))
    (hplain : ∀ piece ∈ front, isPattern piece = false) (entry : String)
    (h : Path.pieces (body (base.join entry)) = front ++ Path.pieces entry.toList) :
    stepsOf? (body (base.join entry)) =
      (stepsOf? entry.toList).map (front.map plainStep ++ ·) := by
  have hlast : dropLastEmpty (front ++ Path.pieces entry.toList) =
      front ++ dropLastEmpty (Path.pieces entry.toList) := by
    have hne := Path.pieces_ne_nil entry.toList
    obtain ⟨last, hlast⟩ := List.getLast?_isSome.mpr hne |> Option.isSome_iff_exists.mp
    rw [dropLastEmpty, dropLastEmpty, List.getLast?_append, hlast, Option.some_or]
    split
    · exact List.dropLast_append_of_ne_nil hne
    · rfl
  rw [stepsOf?, stepsOf?, h, hlast, List.mapM_append, mapM_plain front hplain]
  simp only [Option.bind_eq_bind, Option.bind_some, Option.pure_def, Option.map_eq_bind]
  rfl

/-- Pieces without slashes are those of the text that is put together from them. -/
theorem pieces_intercalate (l : List (List Char)) (hne : l ≠ [])
    (hslash : ∀ piece ∈ l, '/' ∉ piece) : Path.pieces (['/'].intercalate l) = l := by
  induction l with
  | nil => exact absurd rfl hne
  | cons piece l ih =>
    obtain ⟨hpiece, hl⟩ := List.forall_mem_cons.mp hslash
    cases l with
    | nil => simpa using Path.pieces_of_no_slash piece hpiece
    | cons next l =>
      rw [List.intercalate_cons_cons, List.append_assoc, List.singleton_append,
        Path.pieces_append_slash, Path.pieces_of_no_slash piece hpiece,
        ih (List.cons_ne_nil _ _) hl]
      rfl

/-- Such a text is relative if its first piece is not empty. -/
theorem exists_text (l : List (List Char)) (hne : l ≠ []) (hslash : ∀ piece ∈ l, '/' ∉ piece)
    (hhead : l.head? ≠ some []) :
    ∃ r : String, r.toList.head? ≠ some '/' ∧ Path.pieces r.toList = l := by
  have hpieces := pieces_intercalate l hne hslash
  refine ⟨String.ofList (['/'].intercalate l), ?_, by rw [String.toList_ofList, hpieces]⟩
  intro hstart
  have habsolute : (⟨String.ofList (['/'].intercalate l)⟩ : Path).isAbsolute = true := by
    simpa [Path.isAbsolute] using hstart
  obtain ⟨rest, hrest⟩ := Path.pieces_of_isAbsolute _ habsolute
  rw [String.toList_ofList, hpieces] at hrest
  exact hhead (by rw [hrest]; rfl)

/-- The first step of a pattern that does not begin with a slash is no empty name. -/
theorem exists_first_of_stepsOf (entry : List Char) (steps : List Step) (hne : entry ≠ [])
    (hrelative : entry.head? ≠ some '/') (h : stepsOf? entry = some steps) :
    ∃ first rest, steps = first :: rest ∧ first ≠ .name [] := by
  obtain ⟨c, s, rfl⟩ := List.exists_cons_of_ne_nil hne
  have hc : c ≠ '/' := fun hc => hrelative (by rw [hc]; rfl)
  have hfirst : ∃ piece more, dropLastEmpty (Path.pieces (c :: s)) = (c :: piece) :: more := by
    obtain ⟨piece, more, hpieces⟩ : ∃ piece more, Path.pieces (c :: s) = (c :: piece) :: more := by
      rw [Path.pieces, if_neg hc]
      cases Path.pieces s with
      | nil => exact ⟨[], [], rfl⟩
      | cons piece more => exact ⟨piece, more, rfl⟩
    rw [hpieces, dropLastEmpty]
    split
    · next hlast =>
      cases more with
      | nil => simp at hlast
      | cons next more => exact ⟨piece, (next :: more).dropLast, rfl⟩
    · exact ⟨piece, more, rfl⟩
  obtain ⟨piece, more, hpieces⟩ := hfirst
  rw [stepsOf?, hpieces, List.mapM_cons] at h
  simp only [Option.bind_eq_bind, Option.bind_eq_some_iff] at h
  obtain ⟨first, hfirst, rest, hrest, hsteps⟩ := h
  refine ⟨first, rest, (Option.some.inj hsteps).symm, ?_⟩
  rintro rfl
  exact absurd (eq_of_ofText (c :: piece) [] [] hfirst rfl) (by simp)

end Glob
end Retest
