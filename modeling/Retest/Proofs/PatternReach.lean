import Retest.Proofs.PatternSearch

/-! A search for a path pattern misses no directory. Along the pieces of a path that can be looked
up, no path on the way is too long: a lone dot gives way to the next name, and every other path is
spelled as short as the whole. -/

namespace Retest.Glob

def lead (p : Path) : Nat :=
  if p.same ⟨"."⟩ then 0
  else if p.text.toList.getLast? = some '/' then p.text.utf8ByteSize
  else p.text.utf8ByteSize + 1

def weight : List (List Char) → Nat
  | [] => 0
  | piece :: rest => (String.ofList piece).utf8ByteSize + 1 + weight rest

def Gapped (l : List (List Char)) : Prop :=
  ∃ dots rest, l = List.replicate dots ['.'] ++ [] :: rest

/-- A relative path with a gap after its first dots. A search that has gone nowhere yet puts the
empty name in the place of the dot, and nothing has the empty path. -/
def Stalls (p : Path) : Prop := p.isAbsolute = false ∧ Gapped (Path.pieces p.text.toList)

structure Ready (t : FileTree) (p : Path) (l : List (List Char)) : Prop where
  isDir : t.isDir p = true
  walks : t.Walks (t.trail p) (l.filterMap Path.component?)
  noSlash : ∀ piece ∈ l, '/' ∉ piece
  noNul : ∀ piece ∈ l, '\x00' ∉ piece
  room : lead p + weight l ≤ FileTree.pathLimit
  moves : p.same ⟨"."⟩ = true → ¬Gapped l

theorem weight_pieces (l : List Char) :
    weight (Path.pieces l) = (String.ofList l).utf8ByteSize + 1 := by
  induction l with
  | nil => rfl
  | cons c l ih =>
    rw [Path.pieces, size_ofList_cons]
    split
    · next hc =>
      have hslash : c.utf8Size = 1 := by rw [hc]; rfl
      have hfirst : weight ([] :: Path.pieces l) = 1 + weight (Path.pieces l) := rfl
      rw [hfirst, ih, hslash]
      omega
    · cases hp : Path.pieces l with
      | nil => exact absurd hp (Path.pieces_ne_nil l)
      | cons piece more =>
        rw [hp] at ih
        simp only [weight, size_ofList_cons] at ih ⊢
        omega

theorem size_stepInto (p : Path) (name : String) (hp : p.text.toList ≠ []) (h : '/' ∉ name.toList) :
    (stepInto p name).text.utf8ByteSize = lead p + name.utf8ByteSize := by
  have hhead := Path.head_ne_slash name.toList h
  rw [stepInto, lead]
  split
  · simp
  · rw [Path.join, if_neg hhead]
    by_cases hslash : p.text.toList.getLast? = some '/'
    · rw [if_pos (Or.inr hslash), if_pos hslash, String.utf8ByteSize_append]
    · rw [if_neg (not_or.mpr ⟨hp, hslash⟩), if_neg hslash, String.utf8ByteSize_append,
        String.utf8ByteSize_append]
      rfl

theorem lead_le (p : Path) : lead p ≤ p.text.utf8ByteSize + 1 := by
  rw [lead]
  split
  · exact Nat.zero_le _
  · split <;> omega

/-- Only a dot in the place of a lone dot is a lone dot again. -/
theorem eq_dot_of_stepInto (p : Path) (name : String) (hp : p.text.toList ≠ [])
    (h : '/' ∉ name.toList) (hsame : (stepInto p name).same ⟨"."⟩ = true) :
    p.same ⟨"."⟩ = true ∧ name.toList = ['.'] := by
  have hhead := Path.head_ne_slash name.toList h
  have hcomponents := (Path.same_dot_iff _).mp hsame
  rw [stepInto] at hcomponents
  split at hcomponents
  · next hdot =>
    refine ⟨hdot, Decidable.byContradiction fun hne => ?_⟩
    have habsolute : (⟨name⟩ : Path).isAbsolute = false := by simpa [Path.isAbsolute] using hhead
    rw [Path.components_eq, Path.pieces_of_no_slash _ h, habsolute,
      Path.componentsOf] at hcomponents
    have hcurrent : Path.component? name.toList = some .current := by
      simpa [hne, Option.toList_eq_singleton_iff] using hcomponents
    exact absurd (Path.moves_of_component _ _ hcurrent) (by decide)
  · next hdot =>
    rw [Path.components_join_relative p name hp hhead] at hcomponents
    obtain ⟨c, cs, hc⟩ := List.exists_cons_of_ne_nil (Path.components_ne_nil p hp)
    rw [hc] at hcomponents
    obtain ⟨rfl, hrest⟩ := List.cons.inj hcomponents
    have hcs := (List.append_eq_nil_iff.mp hrest).1
    exact absurd ((Path.same_dot_iff p).mpr (by rw [hc, hcs])) hdot

theorem Ready.text_ne_nil {t : FileTree} {p : Path} {l : List (List Char)} (h : Ready t p l) :
    p.text.toList ≠ [] := ((t.isDir_iff p).mp h.isDir).1

/-- A step into a directory that stands there leads to its path. -/
theorem isDir_stepInto (t : FileTree) (p : Path) (name : String) (hp : t.isDir p = true)
    (hslash : '/' ∉ name.toList) (hnul : '\x00' ∉ name.toList)
    (hfits : FileTree.fits (stepInto p name) = true)
    (hwalks : t.Walks (t.trail p) ([name.toList].filterMap Path.component?))
    (hdot : p.same ⟨"."⟩ = true → name.toList ≠ []) : t.isDir (stepInto p name) = true := by
  have hhead := Path.head_ne_slash name.toList hslash
  obtain ⟨htext, hnulp, -, hwalksp⟩ := (t.isDir_iff p).mp hp
  rw [t.isDir_iff]
  rw [stepInto] at hfits ⊢
  split
  · next hsame =>
    rw [if_pos hsame] at hfits
    refine ⟨hdot hsame, hnul, hfits, ?_⟩
    have hstart : t.start ⟨name⟩ = t.trail p := by
      have habsolute : (⟨name⟩ : Path).isAbsolute = false := by simpa [Path.isAbsolute] using hhead
      rw [t.trail_congr p ⟨"."⟩ hsame, FileTree.start, habsolute]
      rfl
    rw [hstart, Path.steps, Path.pieces_of_no_slash _ hslash]
    exact hwalks
  · next hsame =>
    rw [if_neg hsame] at hfits
    have hjoin : '\x00' ∉ (p.join name).text.toList := by
      rw [Path.join, if_neg hhead]
      split <;> simp [hnulp, hnul]
    have hne : (p.join name).text.toList ≠ [] := by
      rw [Path.join, if_neg hhead]
      split <;> simp [htext]
    refine ⟨hne, hjoin, hfits, ?_⟩
    rw [t.start_join p name hhead, Path.steps_join p name hhead, t.walks_append,
      Path.pieces_of_no_slash _ hslash]
    exact ⟨hwalksp, hwalks⟩

/-- One piece further the way goes on. -/
theorem Ready.step {t : FileTree} {p : Path} {name : String} {l : List (List Char)}
    (h : Ready t p (name.toList :: l)) : Ready t (stepInto p name) l := by
  have htext := h.text_ne_nil
  obtain ⟨hslash, hslashes⟩ := List.forall_mem_cons.mp h.noSlash
  obtain ⟨hnul, hnuls⟩ := List.forall_mem_cons.mp h.noNul
  have hwalks := h.walks
  rw [← List.singleton_append, List.filterMap_append, t.walks_append] at hwalks
  obtain ⟨hfirst, hrest⟩ := hwalks
  have hroom : lead p + (name.utf8ByteSize + 1 + weight l) ≤ FileTree.pathLimit := by
    have hroom := h.room
    simpa [weight] using hroom
  have hsize := size_stepInto p name htext hslash
  have hfits : FileTree.fits (stepInto p name) = true := by
    rw [FileTree.fits, hsize]
    exact decide_eq_true (by omega)
  have hdot (hsame : p.same ⟨"."⟩ = true) : name.toList ≠ [] :=
    fun hnil => h.moves hsame ⟨0, l, by rw [hnil]; rfl⟩
  have hdir := isDir_stepInto t p name h.isDir hslash hnul hfits hfirst hdot
  refine ⟨hdir, ?_, hslashes, hnuls, ?_, ?_⟩
  · rw [trail_stepInto t p name hslash]
    exact hrest
  · have hlead := lead_le (stepInto p name)
    omega
  · rintro hsame ⟨dots, rest, rfl⟩
    obtain ⟨hdot, hname⟩ := eq_dot_of_stepInto p name htext hslash hsame
    exact h.moves hdot ⟨dots + 1, rest, by rw [hname]; rfl⟩

theorem Ready.walk {t : FileTree} {p : Path} (names : List String) {l : List (List Char)}
    (h : Ready t p (names.map String.toList ++ l)) : Ready t (names.foldl stepInto p) l := by
  induction names generalizing p with
  | nil => exact h
  | cons name names ih => exact ih h.step

/-- The names along the way are those of what stands below. -/
theorem Ready.descend {t : FileTree} {p : Path} (names : List String) {l : List (List Char)}
    (hnames : ∀ name ∈ names, Path.IsName name)
    (h : Ready t p (names.map String.toList ++ l)) :
    ∃ n, t.node? p = some n ∧ (n.descend names).isSome = true := by
  obtain ⟨es, hnode, hdescend⟩ := t.node_of_isDir p h.isDir
  obtain ⟨es', -, hend⟩ := t.node_of_isDir _ (h.walk names).isDir
  refine ⟨.directory es, hnode, ?_⟩
  rw [trail_foldl_stepInto t p names hnames, FileTree.along_names _ names hnames,
    List.reverse_append, List.reverse_reverse, FileNode.descend_append, hdescend] at hend
  exact Option.isSome_of_eq_some hend

/-- Along pieces that the steps stand for, a search finds what is there. -/
theorem exists_mem_follow (t : FileTree) (ht : t.Tidy) (dirsOnly : Bool) (steps : List Step)
    (l : List (List Char)) (hm : Matches false steps l) (p : Path) (h : Ready t p l) :
    ∃ q ∈ follow t dirsOnly steps p, t.isDir q = true ∧
      t.trail q = FileTree.along (t.trail p) l := by
  induction hm generalizing p with
  | done =>
    refine ⟨p, ?_, h.isDir, rfl⟩
    simp [follow, h.isDir]
  | @plain tokens name rest l hplain hrest ih =>
    have hname : (String.ofList name).toList = name := String.toList_ofList
    rw [← hname] at h
    obtain ⟨q, hq, hdir, htrail⟩ := ih _ h.step
    have hgoes : goesOn t p name = true := by
      obtain ⟨es, hnode, -⟩ := t.node_of_isDir _ h.step.isDir
      simp [goesOn, FileTree.pathExists, hnode, h.isDir]
    refine ⟨q, ?_, hdir, ?_⟩
    · rw [follow]
      simp only [hplain, hgoes, if_true]
      exact hq
    · rw [htrail, along_stepInto t p _ (h.noSlash _ List.mem_cons_self), hname]
  | @wild tokens rest l name hwild hname hfits hrest ih =>
    obtain ⟨q, hq, hdir, htrail⟩ := ih _ h.step
    obtain ⟨n, hn, hnode⟩ := h.descend [name] (List.forall_mem_singleton.mpr hname)
    have hmem : name ∈ t.names p := by
      refine (mem_names_iff t ht p name).mpr ⟨n, hn, ?_⟩
      simpa [FileNode.descend] using hnode
    refine ⟨q, ?_, hdir, ?_⟩
    · rw [follow]
      simp only [hwild, h.isDir, if_true]
      refine List.mem_append_right _ (List.mem_flatMap.mpr ⟨name, hmem, ?_⟩)
      rwa [if_pos hfits]
    · rw [htrail, along_stepInto t p name hname.noSlash]
  | dot hdots => cases hdots
  | again hrest ih =>
    rw [follow]
    exact ih p h
  | @down names hsome hnames =>
    rw [← List.append_nil (names.map String.toList)] at h
    obtain ⟨n, hn, hnode⟩ := h.descend names hnames
    have hbelow := (mem_pathsBelow_iff t ht p _).mpr ⟨n, names, hn, hsome, hnode, rfl⟩
    refine ⟨names.foldl stepInto p, ?_, (h.walk names).isDir, trail_foldl_stepInto t p names hnames⟩
    rw [follow]
    exact List.mem_filter.mpr ⟨hbelow, (h.walk names).isDir⟩
  | @downTo tokens rest l names name hnames hname hfits hrest ih =>
    have hsplit : names.map String.toList ++ name.toList :: l =
        (names ++ [name]).map String.toList ++ l := by simp
    have hall : ∀ last ∈ names ++ [name], Path.IsName last :=
      List.forall_mem_append.mpr ⟨hnames, List.forall_mem_singleton.mpr hname⟩
    rw [hsplit] at h
    obtain ⟨n, hn, hnode⟩ := h.descend _ hall
    have hbelow := (mem_pathsBelow_iff t ht p _).mpr ⟨n, _, hn, by simp, hnode, rfl⟩
    obtain ⟨q, hq, hdir, htrail⟩ := ih _ (h.walk _)
    have hfile : ((names ++ [name]).foldl stepInto p).fileName = some name := by
      rw [List.foldl_append]
      exact fileName_stepInto _ name hname
    refine ⟨q, ?_, hdir, ?_⟩
    · rw [follow]
      refine List.mem_flatMap.mpr ⟨_, hbelow, ?_⟩
      rw [hfile]
      simpa [hfits] using hq
    · rw [htrail, trail_foldl_stepInto t p _ hall, ← FileTree.along_append, hsplit]

/-- Where a search begins, the whole way lies ahead. -/
theorem ready_origin (t : FileTree) (p : Path) (hdir : t.isDir p = true) (hmoves : ¬Stalls p) :
    Ready t (origin p) (Path.pieces (body p)) := by
  obtain ⟨-, hnul, hfits, hwalks⟩ := (t.isDir_iff p).mp hdir
  have hsize : p.text.utf8ByteSize < FileTree.pathLimit := of_decide_eq_true hfits
  have hbody : body p ⊆ p.text.toList := by
    rw [body]
    split
    · exact List.drop_subset 1 _
    · exact List.Subset.refl _
  refine ⟨?_, ?_, Path.not_mem_slash_of_mem_pieces (body p), ?_, ?_, ?_⟩
  · have hbegin := t.holdsDir_of_walks _ _ hwalks
    rw [t.isDir_iff, start_origin]
    rw [origin]
    split <;> exact ⟨by decide, by decide, by decide, hbegin⟩
  · rw [trail_origin, ← steps_eq_body]
    exact hwalks
  · intro piece hpiece hc
    exact hnul (hbody ((Path.mem_pieces_iff _ _).mp ⟨piece, hpiece, hc⟩).1)
  · rw [weight_pieces]
    by_cases habsolute : p.isAbsolute = true
    · have hlead : lead ⟨"/"⟩ = 1 := by decide
      have hslash : p.text.utf8ByteSize = 1 + (String.ofList (body p)).utf8ByteSize := by
        rw [← String.ofList_toList (s := p.text), text_of_isAbsolute p habsolute, size_ofList_cons]
        rfl
      rw [origin, if_pos habsolute, hlead]
      omega
    · have hlead : lead ⟨"."⟩ = 0 := by decide
      rw [origin, if_neg habsolute, hlead, body, if_neg habsolute, String.ofList_toList]
      omega
  · intro hsame
    cases habsolute : p.isAbsolute with
    | true =>
      rw [origin, if_pos habsolute] at hsame
      exact absurd hsame (by decide)
    | false =>
      rw [body, if_neg (by simp [habsolute])]
      exact fun hgap => hmoves ⟨habsolute, hgap⟩

/-- A pattern that is joined to a path without wildcards finds every directory below that path
that the entry stands for. -/
theorem exists_mem_expand (t : FileTree) (ht : t.Tidy) (base : Path)
    (hbase : isPattern base.text.toList = false) (entry : String)
    (hrelative : entry.toList.head? ≠ some '/') (found : List Path)
    (h : expand? t (base.join entry) = some found) (r : String) (hstands : StandsFor false entry r)
    (hdir : t.isDir (base.join r) = true) (hmoves : ¬Stalls (base.join r)) :
    ∃ q ∈ found, t.isDir q = true ∧ t.trail q = t.trail (base.join r) := by
  obtain ⟨hr, steps, hsteps, hm⟩ := hstands
  obtain ⟨front, hplain, hfront⟩ := exists_front base hbase
  rw [expand_eq, stepsOf_join base front hplain entry (hfront entry hrelative), hsteps] at h
  obtain rfl := Option.some.inj h
  have hready := ready_origin t (base.join r) hdir hmoves
  rw [hfront r hr] at hready
  have horigin : origin (base.join r) = origin (base.join entry) := by
    rw [origin, origin, Path.isAbsolute_join base r hr, Path.isAbsolute_join base entry hrelative]
  rw [horigin] at hready
  obtain ⟨q, hq, hqdir, htrail⟩ := exists_mem_follow t ht _ _ _
    ((matches_plain_append false front steps _).mpr ⟨_, rfl, hm⟩) _ hready
  refine ⟨q, hq, hqdir, ?_⟩
  rw [htrail, trail_origin, t.start_join base entry hrelative, trail_eq_along, hfront r hr,
    t.start_join base r hr]

end Retest.Glob
