import Retest.Proofs.PathLookup

/-! Where a path leads by its spelling alone, and when a directory stands there. A path that is put
together from pieces leads along them, one after the other. -/

namespace Retest

namespace Path

theorem head_ne_slash (l : List Char) (h : '/' ∉ l) : l.head? ≠ some '/' :=
  fun hhead => h (List.mem_of_mem_head? (Option.mem_def.mpr hhead))

theorem same_iff (p q : Path) : p.same q = true ↔ p.components = q.components := by
  rw [same, Ordering.isEq_iff_eq_eq, compare_eq_iff]

theorem same_dot_iff (p : Path) : p.same ⟨"."⟩ = true ↔ p.components = [.current] := by
  have hdot : (⟨"."⟩ : Path).components = [.current] := by decide
  rw [same_iff, hdot]

theorem components_ne_nil (p : Path) (h : p.text.toList ≠ []) : p.components ≠ [] := by
  obtain ⟨c, l, hl⟩ := List.exists_cons_of_ne_nil h
  rw [components_eq, hl, pieces]
  by_cases hc : c = '/'
  · simp [hc, componentsOf, isAbsolute, hl]
  · have hno : p.isAbsolute = false := by simpa [isAbsolute, hl] using hc
    have hsome (piece : List Char) (more : List (List Char)) :
        componentsOf false ((c :: piece) :: more) ≠ [] := by
      rw [componentsOf]
      by_cases hdot : c :: piece = ['.']
      · simp [hdot]
      · by_cases hdots : c :: piece = ['.', '.'] <;> simp [component?, hdot, hdots]
    rw [if_neg hc, hno]
    cases pieces l with
    | nil => exact hsome [] []
    | cons piece more => exact hsome piece more

theorem isAbsolute_join (dir : Path) (tail : String) (h : tail.toList.head? ≠ some '/') :
    (dir.join tail).isAbsolute = dir.isAbsolute := by
  rw [join, if_neg h]
  cases hl : dir.text.toList with
  | nil => simp [isAbsolute, hl, h]
  | cons c l => split <;> simp [isAbsolute, hl]

/-- Joining a relative path appends its components, whatever it is joined to. -/
theorem steps_join (dir : Path) (tail : String) (h : tail.toList.head? ≠ some '/') :
    (dir.join tail).steps = dir.steps ++ (pieces tail.toList).filterMap component? := by
  have hempty : (pieces []).filterMap component? = [] := by simp [pieces, component?]
  rw [join, if_neg h]
  split
  · next hend =>
    rcases hend with hnil | hslash
    · simp [steps, hnil, hempty]
    · obtain ⟨front, hfront⟩ := List.getLast?_eq_some_iff.mp hslash
      simp [steps, hfront, pieces_append_slash, hempty]
  · simp [steps, pieces_append_slash]

/-- A name at the end of a path is its file name. -/
theorem fileName_join (dir : Path) (name : String) (h : IsName name) :
    (dir.join name).fileName = some name := by
  by_cases hdir : dir.text.toList = []
  · have hjoin : dir.join name = ⟨name⟩ := by
      rw [join, if_neg h.head_ne_slash, if_pos (Or.inl hdir), String.toList_eq_nil_iff.mp hdir,
        String.empty_append]
    have habsolute : (⟨name⟩ : Path).isAbsolute = false := by
      simpa [isAbsolute] using h.head_ne_slash
    rw [hjoin, fileName, components_eq, pieces_of_no_slash _ h.noSlash]
    simp [componentsOf, habsolute, h.noDot, component_of_isName name h]
  · rw [fileName, components_join dir name hdir h, List.getLast?_concat]

end Path

namespace FileTree

def along (here : List String) (l : List (List Char)) : List String :=
  (l.filterMap Path.component?).foldl Component.enter here

theorem along_append (here : List String) (l m : List (List Char)) :
    along here (l ++ m) = along (along here l) m := by
  simp [along]

/-- Names lead down, one below the other. -/
theorem along_names (here names : List String) (h : ∀ name ∈ names, Path.IsName name) :
    along here (names.map String.toList) = names.reverse ++ here := by
  induction names generalizing here with
  | nil => rfl
  | cons name names ih =>
    obtain ⟨hname, hnames⟩ := List.forall_mem_cons.mp h
    have hfirst : along here [name.toList] = name :: here := by
      simp [along, Path.component_of_isName name hname, Component.enter]
    rw [List.map_cons, ← List.singleton_append, along_append, hfirst, ih (name :: here) hnames]
    simp

variable (t : FileTree)

def trail (p : Path) : List String := p.steps.foldl Component.enter (t.start p)

theorem spelledNames_eq_trail (p : Path) : t.spelledNames p = (t.trail p).reverse :=
  t.spelledNames_eq_foldl p

theorem trail_congr (p q : Path) (h : p.same q = true) : t.trail p = t.trail q := by
  have hnames := t.spelledNames_congr p q ((Path.compare_eq_iff p q).mpr ((Path.same_iff p q).mp h))
  rwa [spelledNames_eq_trail, spelledNames_eq_trail, List.reverse_inj] at hnames

theorem start_join (dir : Path) (tail : String) (h : tail.toList.head? ≠ some '/') :
    t.start (dir.join tail) = t.start dir := by
  rw [start, start, Path.isAbsolute_join dir tail h]

theorem trail_join (dir : Path) (tail : String) (h : tail.toList.head? ≠ some '/') :
    t.trail (dir.join tail) = along (t.trail dir) (Path.pieces tail.toList) := by
  rw [trail, t.start_join dir tail h, Path.steps_join dir tail h, List.foldl_append]
  rfl

def Walks (here : List String) : List Component → Prop
  | [] => t.HoldsDir here
  | c :: rest => t.HoldsDir here ∧ c.Short ∧ Walks (c.enter here) rest

theorem holdsDir_of_walks (here : List String) (cs : List Component) (h : t.Walks here cs) :
    t.HoldsDir here := by
  cases cs with
  | nil => exact h
  | cons c cs => exact h.1

theorem walks_append (here : List String) (cs ds : List Component) :
    t.Walks here (cs ++ ds) ↔
      t.Walks here cs ∧ t.Walks (cs.foldl Component.enter here) ds := by
  induction cs generalizing here with
  | nil => exact ⟨fun h => ⟨t.holdsDir_of_walks here ds h, h⟩, And.right⟩
  | cons c cs ih => simp only [List.cons_append, Walks, ih, List.foldl_cons, and_assoc]

/-- Pieces are followed to a directory just when directories stand all along their components. -/
theorem follow_holdsDir_iff (l : List (List Char)) (here : List String) :
    (∃ names, t.follow here l = .ok names ∧ t.HoldsDir names) ↔
      t.Walks here (l.filterMap Path.component?) := by
  induction l generalizing here with
  | nil =>
    constructor
    · rintro ⟨names, hfollow, hdir⟩
      exact (Except.ok.inj hfollow : here = names) ▸ hdir
    · exact fun h => ⟨here, rfl, h⟩
  | cons piece l ih =>
    simp only [t.follow_cons_iff]
    cases hc : Path.component? piece with
    | none =>
      rw [List.filterMap_cons_none hc, ← ih]
      constructor
      · rintro ⟨names, ⟨-, ⟨-, hfollow⟩ | ⟨c, hc', -⟩⟩, hend⟩
        · exact ⟨names, hfollow, hend⟩
        · cases hc'
      · rintro ⟨names, hfollow, hend⟩
        -- An empty piece and a dot ask for the directory that the rest starts from.
        have hdir := t.holdsDir_of_walks here _ ((ih here).mp ⟨names, hfollow, hend⟩)
        exact ⟨names, ⟨hdir, Or.inl ⟨rfl, hfollow⟩⟩, hend⟩
    | some c =>
      rw [List.filterMap_cons_some hc, Walks, ← ih]
      constructor
      · rintro ⟨names, ⟨hdir, ⟨hc', -⟩ | ⟨d, hd, hshort, -, hfollow⟩⟩, hend⟩
        · cases hc'
        · cases hd
          exact ⟨hdir, hshort, names, hfollow, hend⟩
      · rintro ⟨hdir, hshort, names, hfollow, hend⟩
        obtain ⟨es, hes⟩ :=
          t.holdsDir_of_walks (c.enter here) _ ((ih (c.enter here)).mp ⟨names, hfollow, hend⟩)
        exact ⟨names, ⟨hdir, Or.inr ⟨c, rfl, hshort, Option.isSome_of_eq_some hes, hfollow⟩⟩, hend⟩

/-- A path is that of a directory if its text can be looked up and directories stand all along its
components. -/
theorem isDir_iff (p : Path) : t.isDir p = true ↔ p.text.toList ≠ [] ∧
    '\x00' ∉ p.text.toList ∧ fits p = true ∧ t.Walks (t.start p) p.steps := by
  have hnode : t.isDir p = true ↔ ∃ names, t.locate p = .ok names ∧ t.HoldsDir names.reverse := by
    rw [isDir, node?]
    cases hl : t.locate p with
    | error e => simp
    | ok names =>
      simp only [Except.ok.injEq, exists_eq_left', HoldsDir, List.reverse_reverse]
      cases hd : t.root.descend names with
      | none => simp
      | some n => cases n <;> simp [FileNode.isDirectory]
  rw [hnode, Path.steps, ← t.follow_holdsDir_iff]
  simp only [t.locate_ok_iff]
  constructor
  · rintro ⟨names, ⟨htext, hnul, hfits, hfollow⟩, hend⟩
    exact ⟨htext, hnul, hfits, names.reverse, hfollow, hend⟩
  · rintro ⟨htext, hnul, hfits, back, hfollow, hend⟩
    refine ⟨back.reverse, ⟨htext, hnul, hfits, ?_⟩, ?_⟩ <;> rwa [List.reverse_reverse]

theorem holdsDir_of_isDir (p : Path) (h : t.isDir p = true) : t.HoldsDir (t.trail p) := by
  obtain ⟨-, -, -, hwalks⟩ := (t.isDir_iff p).mp h
  have hsplit := t.walks_append (t.start p) p.steps []
  rw [List.append_nil] at hsplit
  exact (hsplit.mp hwalks).2

/-- The node of a directory stands where its path leads. -/
theorem node_of_isDir (p : Path) (h : t.isDir p = true) :
    ∃ es, t.node? p = some (.directory es) ∧
      t.root.descend (t.trail p).reverse = some (.directory es) := by
  obtain ⟨n, hn, hdir⟩ := (Option.any_eq_true _ _).mp h
  obtain ⟨es, hes⟩ := t.holdsDir_of_isDir p h
  have hnode := (t.node_eq p n hn).2
  rw [spelledNames_eq_trail, hes] at hnode
  exact ⟨es, by rw [hn, ← hnode], hes⟩

end FileTree

end Retest
