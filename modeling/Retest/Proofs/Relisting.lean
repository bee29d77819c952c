import Retest.Proofs.FileTree

/-! Directories list their entries in any order. Trees that differ by nothing else hold the same
files under the same names, and the same paths lead to them. -/

namespace Retest

namespace FileNode

inductive Relisted : FileNode → FileNode → Prop
  | refl (n : FileNode) : Relisted n n
  | reorder (es es' : List (String × FileNode)) (h : es.Perm es') :
      Relisted (directory es) (directory es')
  | inside (front rest : List (String × FileNode)) (name : String) (n n' : FileNode)
      (h : Relisted n n') :
      Relisted (directory (front ++ (name, n) :: rest)) (directory (front ++ (name, n') :: rest))
  | trans (l m n : FileNode) (hl : Relisted l m) (hm : Relisted m n) : Relisted l n

namespace Relisted

variable {n n' : FileNode}

theorem symm (h : n.Relisted n') : n'.Relisted n := by
  induction h with
  | refl n => exact refl n
  | reorder es es' h => exact reorder es' es h.symm
  | inside front rest name n n' _ ih => exact inside front rest name n' n ih
  | trans l m n _ _ ihl ihm => exact trans n m l ihm ihl

theorem tidy (h : n.Relisted n') (hn : n.Tidy) : n'.Tidy := by
  induction h with
  | refl n => exact hn
  | reorder es es' h =>
    obtain ⟨hnodup, hes⟩ := hn
    refine ⟨(h.map _).nodup_iff.mp hnodup, (tidyEntries_iff es').mpr ?_⟩
    exact fun e he => tidy_of_mem es hes e (h.mem_iff.mpr he)
  | inside front rest name n n' _ ih =>
    obtain ⟨hnodup, hes⟩ := hn
    obtain ⟨hname, hnode⟩ := tidy_of_mem _ hes (name, n) (by simp)
    refine ⟨by simpa using hnodup, (tidyEntries_iff _).mpr ?_⟩
    intro e he
    rcases List.mem_append.mp he with he | he
    · exact tidy_of_mem _ hes e (List.mem_append_left _ he)
    · rcases List.mem_cons.mp he with rfl | he
      · exact ⟨hname, ih hnode⟩
      · exact tidy_of_mem _ hes e (List.mem_append_right _ (List.mem_cons_of_mem _ he))
  | trans l m n _ _ ihl ihm => exact ihm (ihl hn)

theorem child (h : n.Relisted n') (hn : n.Tidy) (name : String) (c : FileNode)
    (hc : n.child? name = some c) : ∃ c', n'.child? name = some c' ∧ c.Relisted c' := by
  induction h generalizing c with
  | refl n => exact ⟨c, hc, refl c⟩
  | reorder es es' h =>
    obtain ⟨es₀, hes, hm⟩ := mem_of_child _ c name hc
    rw [← directory.inj hes] at hm
    have hnodup := (h.map Prod.fst).nodup_iff.mp hn.1
    exact ⟨c, child_of_mem es' hnodup (name, c) (h.mem_iff.mp hm), refl c⟩
  | inside front rest first m m' hm _ =>
    have htidy := (inside front rest first m m' hm).tidy hn
    obtain ⟨es₀, hes, hmem⟩ := mem_of_child _ c name hc
    rw [← directory.inj hes] at hmem
    rcases List.mem_append.mp hmem with he | he
    · exact ⟨c, child_of_mem _ htidy.1 (name, c) (List.mem_append_left _ he), refl c⟩
    · rcases List.mem_cons.mp he with he | he
      · -- It is the entry below which the listing differs.
        obtain ⟨rfl, rfl⟩ := Prod.mk.inj he
        exact ⟨m', child_of_mem _ htidy.1 (name, m') (by simp), hm⟩
      · exact ⟨c, child_of_mem _ htidy.1 (name, c)
          (List.mem_append_right _ (List.mem_cons_of_mem _ he)), refl c⟩
  | trans l m n hl _ ihl ihm =>
    obtain ⟨c₁, hc₁, hcc₁⟩ := ihl hn c hc
    obtain ⟨c₂, hc₂, hcc₂⟩ := ihm (hl.tidy hn) c₁ hc₁
    exact ⟨c₂, hc₂, trans c c₁ c₂ hcc₁ hcc₂⟩

theorem descend (h : n.Relisted n') (hn : n.Tidy) (names : List String) (m : FileNode)
    (hm : n.descend names = some m) : ∃ m', n'.descend names = some m' ∧ m.Relisted m' := by
  induction names generalizing n n' with
  | nil =>
    rw [← Option.some.inj hm]
    exact ⟨n', rfl, h⟩
  | cons name names ih =>
    obtain ⟨c, hc, hrest⟩ := Option.bind_eq_some_iff.mp hm
    obtain ⟨c', hc', hcc'⟩ := h.child hn name c hc
    obtain ⟨m', hm', hmm'⟩ := ih hcc' (tidy_child n c hn name hc).2 hrest
    exact ⟨m', Option.bind_eq_some_iff.mpr ⟨c', hc', hm'⟩, hmm'⟩

/-- A file has nothing to list. -/
theorem eq_of_isFile (h : n.Relisted n') (hn : n.isFile = true) : n' = n := by
  induction h with
  | refl n => rfl
  | reorder es es' h => cases hn
  | inside front rest name n n' _ _ => cases hn
  | trans l m n _ _ ihl ihm =>
    have hml : m = l := ihl hn
    have hnm : n = m := ihm (hml ▸ hn)
    rw [hnm, hml]

end Relisted

end FileNode

namespace FileTree

structure Relisted (t t' : FileTree) : Prop where
  root : t.root.Relisted t'.root
  workingDir : t'.workingDir = t.workingDir

namespace Relisted

variable {t t' : FileTree}

theorem symm (h : t.Relisted t') : t'.Relisted t := ⟨h.root.symm, h.workingDir.symm⟩

theorem isSome_descend (h : t.Relisted t') (ht : t.root.Tidy) (names : List String)
    (hsome : (t.root.descend names).isSome = true) : (t'.root.descend names).isSome = true := by
  obtain ⟨m, hm⟩ := Option.isSome_iff_exists.mp hsome
  obtain ⟨m', hm', -⟩ := h.root.descend ht names m hm
  exact Option.isSome_of_eq_some hm'

theorem holdsDir (h : t.Relisted t') (ht : t.root.Tidy) (here : List String)
    (hdir : t.HoldsDir here) : t'.HoldsDir here := by
  obtain ⟨es, hes⟩ := hdir
  obtain ⟨m', hm', hrel⟩ := h.root.descend ht _ _ hes
  cases m' with
  | directory es' => exact ⟨es', hm'⟩
  | file data modified => cases hrel.symm.eq_of_isFile rfl

theorem follow (h : t.Relisted t') (ht : t.root.Tidy) (l : List (List Char))
    (here names : List String) (hl : t.follow here l = .ok names) :
    t'.follow here l = .ok names := by
  induction l generalizing here with
  | nil => exact hl
  | cons piece l ih =>
    obtain ⟨hdir, hnext⟩ := (t.follow_cons_iff here piece l names).mp hl
    refine (t'.follow_cons_iff here piece l names).mpr ⟨h.holdsDir ht here hdir, ?_⟩
    rcases hnext with ⟨hnone, hrest⟩ | ⟨c, hc, hshort, hsome, hrest⟩
    · exact Or.inl ⟨hnone, ih here hrest⟩
    · exact Or.inr ⟨c, hc, hshort, h.isSome_descend ht _ hsome, ih (c.enter here) hrest⟩

theorem node (h : t.Relisted t') (ht : t.root.Tidy) (p : Path) (n : FileNode)
    (hn : t.node? p = some n) : ∃ n', t'.node? p = some n' ∧ n.Relisted n' := by
  rw [node?] at hn
  cases hl : t.locate p with
  | error e => simp [hl] at hn
  | ok names =>
    simp only [hl] at hn
    obtain ⟨n', hn', hrel⟩ := h.root.descend ht names n hn
    obtain ⟨htext, hnul, hfits, hfollow⟩ := (t.locate_ok_iff p names).mp hl
    have hstart : t'.start p = t.start p := by
      rw [start, start, h.workingDir]
    have hlocate : t'.locate p = .ok names :=
      (t'.locate_ok_iff p names).mpr
        ⟨htext, hnul, hfits, by rw [hstart]; exact h.follow ht _ _ _ hfollow⟩
    exact ⟨n', by rw [node?, hlocate]; exact hn', hrel⟩

theorem pathExists (h : t.Relisted t') (ht : t.root.Tidy) (p : Path) :
    t'.pathExists p = t.pathExists p := by
  have hone (s s' : FileTree) (hs : s.Relisted s') (hst : s.root.Tidy)
      (hp : s.pathExists p = true) : s'.pathExists p = true := by
    obtain ⟨n, hn⟩ := Option.isSome_iff_exists.mp hp
    obtain ⟨n', hn', -⟩ := hs.node hst p n hn
    exact Option.isSome_of_eq_some hn'
  exact Bool.eq_iff_iff.mpr ⟨hone t' t h.symm (h.root.tidy ht), hone t t' h ht⟩

end Relisted

end FileTree

end Retest
