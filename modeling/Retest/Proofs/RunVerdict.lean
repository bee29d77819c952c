import Retest.CommandLine.Project
import Retest.Proofs.FirstPass
import Retest.Proofs.Reports
import Retest.Run.Rehearsal

namespace Retest

namespace Session

variable (s : Session) (tree : FileTree) (source : ClassSource) (now : Moment)

/-- Looking for changes leaves the engine and the rules alone. -/
theorem kept_indexAll : (s.indexAll tree source).1.engine = s.engine ∧
    (s.indexAll tree source).1.selection.rules = s.selection.rules := by
  rw [indexAll]
  cases s.watch.scan tree with
  | mk watch changes => by_cases hempty : changes.isEmpty = true <;> simp [hempty]

/-- A pass over everything fails just when its rules cannot be loaded. -/
theorem reload_of_runAll :
    (s.runAll tree source now).2.map (fun _ => ()) = (s.selection.rules.reload tree).2 := by
  have hreload (c : Selection) :
      (c.testsNow tree).2.map (fun _ => ()) = (c.rules.reload tree).2 := by
    rw [Selection.testsNow, Selection.reloadRules]
    cases c.rules.reload tree with
    | mk rules result => cases result <;> rfl
  -- Only the loading of the rules can fail in a selection.
  have htests := congrArg (Except.map fun _ => ()) (s.map_tests_runAll tree source now)
  rw [hreload, (s.kept_indexAll tree source).2] at htests
  rw [← htests]
  cases (s.runAll tree source now).2 <;> rfl

/-- What is selected is what the engine runs. -/
theorem run_of_runAll (s' : Session) (u : Update) (h : s.runAll tree source now = (s', .ok u)) :
    s.engine.run now u.tests.toList = (s'.engine, u.session) := by
  have hindex := (s.kept_indexAll tree source).1
  rw [runAll] at h
  cases hi : s.indexAll tree source with
  | mk s₁ changes =>
    rw [hi] at h hindex
    simp only [currentTests] at h
    cases ht : s₁.selection.testsNow tree with
    | mk selection result =>
      cases result with
      | error x => simp [ht] at h
      | ok tests =>
        simp only [ht, queue, Prod.mk.injEq, Except.ok.injEq] at h
        obtain ⟨rfl, rfl⟩ := h
        simp only [← hindex]

end Session

namespace Project

/-- How the command can end that runs all tests, after some turns of its engine. Everybody may have
acted in any order, and the workers may have done anything. -/
inductive RunsTo (p : Project) (now : Moment) : List Turn → Engine → Nat → Prop
  | refused (s : Session) (x : RuleFileError)
    (h : p.session.runAll p.tree p.source now = (s, .error x)) : RunsTo p now [] s.engine 1
  | idle (s : Session) (u : Update) (h : p.session.runAll p.tree p.source now = (s, .ok u))
    (hu : u.session = none) : RunsTo p now [] s.engine 0
  | finished (s : Session) (u : Update) (id : SessionId) (l : List Turn) (e : Engine) (m : Summary)
    (h : p.session.runAll p.tree p.source now = (s, .ok u)) (hu : u.session = some id)
    (hl : s.engine.Run l e) (hm : .complete id m ∈ e.desk.feed.published) :
    RunsTo p now l e (if m.allPassed then 0 else 1)

def turns {σ : Type} (p : Project) (crew : Crew σ) (workers : σ) (now : Moment) (fuel : Nat) :
    List Turn :=
  match p.session.runAll p.tree p.source now with
  | (_, .error _) => []
  | (s, .ok u) =>
    if u.session.isNone then []
    else Floor.turns crew now fuel { engine := s.engine, crew := workers }

theorem complete_of_untilComplete (session : SessionId) (m : Summary) (l : List Event)
    (h : (untilComplete session l).2 = some m) : .complete session m ∈ l := by
  induction l with
  | nil => cases h
  | cons ev l ih =>
    cases ev with
    | complete t m' =>
      rw [untilComplete] at h
      split at h
      · next hts =>
        rw [hts, Option.some.inj h]
        exact List.mem_cons_self
      · exact List.mem_cons_of_mem _ (ih h)
    | _ => exact List.mem_cons_of_mem _ (ih h)

/-- A run with a crew ends in one of these ways, by the turns that it takes. -/
theorem runsTo_run {σ : Type} (p : Project) (crew : Crew σ) (workers : σ) (now : Moment)
    (fuel : Nat) (v : Verdict) (h : p.run crew workers now fuel = some v) :
    ∃ e, p.RunsTo now (p.turns crew workers now fuel) e v.code := by
  rw [run] at h
  rw [turns]
  cases hr : p.session.runAll p.tree p.source now with
  | mk s result =>
    rw [hr] at h
    cases result with
    | error x =>
      cases h
      exact ⟨s.engine, .refused s x hr⟩
    | ok u =>
      cases hu : u.session with
      | none =>
        simp only [hu, Option.some.injEq] at h
        rw [← h]
        exact ⟨s.engine, by simpa [hu] using .idle s u hr hu⟩
      | some id =>
        simp only [hu] at h
        obtain ⟨m, hm, rfl⟩ := Option.map_eq_some_iff.mp h
        -- What the command waits for was published since it began to listen.
        have hcomplete := List.mem_of_mem_drop (complete_of_untilComplete id m _ hm)
        refine ⟨(Floor.settle crew now fuel { engine := s.engine, crew := workers }).engine, ?_⟩
        simp only [hu, Option.isNone_some, Bool.false_eq_true, if_false]
        have hturns := Floor.run_turns crew now fuel { engine := s.engine, crew := workers }
        exact .finished s u id _ _ m hr hu hturns (Array.mem_toList_iff.mp hcomplete)

theorem ends_of_carryOut {σ : Type} (project : Option Project) (crew : Crew σ) (workers : σ)
    (now : Moment) (fuel : Nat) (v : Verdict)
    (h : (carryOut project fun p => p.run crew workers now fuel) = some v) :
    project = none ∧ v.code = 101 ∨ ∃ p, project = some p ∧
      ∃ e, p.RunsTo now (p.turns crew workers now fuel) e v.code := by
  cases project with
  | none =>
    cases h
    exact Or.inl ⟨rfl, rfl⟩
  | some p => exact Or.inr ⟨p, rfl, p.runsTo_run crew workers now fuel v h⟩

/-- A project that could be set up has a fresh engine, which can run tests. -/
theorem engine_of_ofConfig {c : Config} {tree : FileTree} {screen : Screen} {processors : Nat}
    {dirs : List Path} {p : Project} (h : ofConfig c tree screen processors dirs = some p) :
    p.session.engine = .fresh p.session.engine.settings (c.concurrency.getD processors)
        c.eventCapacity {} ∧ p.session.engine.canRun = true ∧
      p.tree = tree ∧ p.source = ClassFile.source tree dirs ∧
      p.session.selection.catalog = .empty := by
  obtain ⟨engine, hengine, rfl⟩ := Option.map_eq_some_iff.mp h
  obtain ⟨idle, hidle, hfeed⟩ := Option.bind_eq_some_iff.mp hengine
  obtain ⟨feed, hfeed, hsame⟩ := Option.bind_eq_some_iff.mp hfeed
  obtain rfl := Option.some.inj hsame
  unfold Permits.create? at hidle
  unfold Feed.create? at hfeed
  split at hidle
  · next hlimit =>
    split at hfeed
    · cases hidle
      cases hfeed
      refine ⟨rfl, (Engine.canRun_iff _).mpr (Or.inr ?_), rfl, rfl, rfl⟩
      have hone (n : Nat) : Nat.max (Nat.max n 1) 1 = Nat.max n 1 :=
        Nat.max_eq_left (Nat.le_max_right n 1)
      exact Nat.le_trans (Nat.le_of_eq (hone _)) hlimit
    · cases hfeed
  · cases hidle

section Fresh

variable {p : Project} {settings : EngineSettings} {limit capacity : Nat} {history : History}
  {now : Moment} {l : List Turn} {e : Engine} {s : Session} {u : Update}

/-- Without selected tests nothing happens to the engine of a project; otherwise they make its first
session. -/
theorem first_of_runAll (hp : p.session.engine = .fresh settings limit capacity history)
    (hcan : p.session.engine.canRun = true)
    (hr : p.session.runAll p.tree p.source now = (s, .ok u)) :
    u.tests.toList = [] ∧ u.session = none ∧
        s.engine = .fresh settings limit capacity history ∨
      u.session = some 1 ∧ ∃ before, (Engine.fresh settings limit capacity history).Run
        [⟨.fresh settings limit capacity history, now, .openSession u.tests.toList⟩,
          ⟨before, now, .push⟩] s.engine := by
  have hrun := p.session.run_of_runAll p.tree p.source now s u hr
  rw [hp] at hrun hcan
  rcases Engine.turns_of_run (.fresh settings limit capacity history) now u.tests.toList rfl
    hcan with
    ⟨hnil, hidle⟩ | ⟨e', before, hfirst, hopening⟩
  · obtain ⟨hengine, hnone⟩ := Prod.mk.inj (hrun.symm.trans hidle)
    exact Or.inl ⟨hnil, hnone, hengine⟩
  · obtain ⟨rfl, hid⟩ := Prod.mk.inj (hrun.symm.trans hfirst)
    exact Or.inr ⟨hid, before, hopening⟩

/-- What the engine of a project does in a run begins with the selected tests. -/
theorem run_of_first (hp : p.session.engine = .fresh settings limit capacity history)
    (hcan : p.session.engine.canRun = true)
    (hr : p.session.runAll p.tree p.source now = (s, .ok u)) {id : SessionId}
    (hu : u.session = some id) (hl : s.engine.Run l e) :
    id = 1 ∧ ∃ opening, (Engine.fresh settings limit capacity history).Run (opening ++ l) e ∧
      (∀ x, firstReport (opening ++ l) x = firstReport l x) ∧
      ∀ x : QueueEntry, x.session = 1 →
        (x ∈ Engine.askedIn (opening ++ l) ↔ x.test ∈ u.tests.toList) := by
  rcases first_of_runAll hp hcan hr with ⟨-, hnone, -⟩ | ⟨hid, before, hopening⟩
  · rw [hnone] at hu
    cases hu
  · have hall := hopening.trans hl
    let first : Turn :=
      ⟨.fresh settings limit capacity history, now, .openSession u.tests.toList⟩
    -- The opening has no reports, and its session is the first.
    have hin : first ∈ [first, ⟨before, now, .push⟩] ++ l :=
      List.mem_append_left l List.mem_cons_self
    have hopens : first.opens = some (1, u.tests.toList) := rfl
    refine ⟨Option.some.inj (hu.symm.trans hid), _, hall, fun x => rfl, fun x hx => ?_⟩
    constructor
    · intro hasked
      obtain ⟨turn, hturn, names, ho, ht⟩ := Engine.of_mem_askedIn _ x hasked
      rw [hx] at ho
      -- No later turn opens the first session again.
      rw [Engine.opens_unique hall 1 turn first names _ hturn hin ho hopens, hopens] at ho
      obtain ⟨-, rfl⟩ := Prod.mk.inj (Option.some.inj ho)
      exact ht
    · intro ht
      have hasked := Engine.mem_askedIn _ first 1 _ x.test hin hopens ht
      rwa [← hx] at hasked

variable (hp : p.session.engine = .fresh settings limit capacity history)
  (hcan : p.session.engine.canRun = true) (hc : p.session.selection.catalog = .empty)
  (hsource : p.source.Sound)

include hc in
theorem mem_tests_iff (hr : (p.session.runAll p.tree p.source now).2 = .ok u) (t : String) :
    t ∈ u.tests.toList ↔ p.session.Offers p.tree hsource t := by
  refine p.session.mem_tests_runAll p.tree hsource ?_ ?_ hr t
  · rw [hc]
    exact ImportGraph.wellFormed_empty
  · rw [hc]
    exact SortedMap.sorted_empty

include hp hcan hc in
/-- A run is green just when its rules could be loaded and every test that it offers passed by the
first report on it. -/
theorem RunsTo.code_eq_zero_iff {code : Nat} (h : p.RunsTo now l e code) :
    code = 0 ↔ (p.session.selection.rules.reload p.tree).2 = .ok () ∧
      ∀ t, p.session.Offers p.tree hsource t → firstReport l ⟨1, t⟩ = some .pass := by
  have hreload := p.session.reload_of_runAll p.tree p.source now
  cases h with
  | refused s x hr =>
    rw [hr] at hreload
    refine iff_of_false Nat.one_ne_zero ?_
    rw [← hreload]
    rintro ⟨hok, -⟩
    cases hok
  | idle s u hr hu =>
    rw [hr] at hreload
    have hok : (p.session.selection.rules.reload p.tree).2 = .ok () := hreload.symm
    refine iff_of_true rfl ⟨hok, fun t ht => ?_⟩
    -- Without a session there was nothing to select.
    rcases first_of_runAll hp hcan hr with ⟨hnil, -, -⟩ | ⟨hid, -⟩
    · have hmem := (mem_tests_iff hc hsource (congrArg Prod.snd hr) t).mpr ht
      rw [hnil] at hmem
      cases hmem
    · rw [hid] at hu
      cases hu
  | finished s u id l e m hr hu hl hm =>
    rw [hr] at hreload
    have hok : (p.session.selection.rules.reload p.tree).2 = .ok () := hreload.symm
    obtain ⟨rfl, opening, hall, hreports, hasked⟩ := run_of_first hp hcan hr hu hl
    -- The tests that were asked for are the ones on offer, so the summary speaks of all of them.
    have hpassed := Engine.allPassed_iff_reported hall 1 m hm
    have hcode : (if m.allPassed then 0 else 1) = 0 ↔ m.allPassed = true := by
      cases m.allPassed <;> simp
    have htests := mem_tests_iff hc hsource (congrArg Prod.snd hr)
    rw [hcode, hpassed, and_iff_right hok]
    constructor
    · intro hpass t ht
      rw [← hreports]
      exact hpass ⟨1, t⟩ ((hasked ⟨1, t⟩ rfl).mpr ((htests t).mpr ht)) rfl
    · intro hpass x hx hsession
      have ht := (htests x.test).mp ((hasked x hsession).mp hx)
      rw [hreports, show x = ⟨1, x.test⟩ by rw [← hsession]]
      exact hpass x.test ht

include hp hcan in
/-- A result other than a pass makes a run red, and so does a worker that could not be started. -/
theorem RunsTo.red {code : Nat} (h : p.RunsTo now l e code) :
    (∀ r, .finished r ∈ e.desk.feed.published → r.session = 1 → r.outcome ≠ .pass → code = 1) ∧
      ∀ turn ∈ l, turn.strands? = some 1 → code = 1 := by
  cases h with
  | refused s x hr => exact ⟨fun _ _ _ _ => rfl, fun _ _ _ => rfl⟩
  | idle s u hr hu =>
    refine ⟨fun r hpublished => ?_, fun turn hl => absurd hl List.not_mem_nil⟩
    rcases first_of_runAll hp hcan hr with ⟨-, -, hengine⟩ | ⟨hid, -⟩
    · rw [hengine] at hpublished
      simp [Engine.fresh, Feed.ofCapacity] at hpublished
    · rw [hid] at hu
      cases hu
  | finished s u id l e m hr hu hl hm =>
    obtain ⟨rfl, opening, hall, -, -⟩ := run_of_first hp hcan hr hu hl
    have hmade := Engine.allPassed_iff_made hall 1 m hm
    have hred (r : TestResult) (hr : e.Made r) (hs : r.session = 1) (hout : r.outcome ≠ .pass) :
        (if m.allPassed then 0 else 1) = 1 :=
      if_neg fun hpassed => hout (hmade.mp hpassed r hr hs)
    refine ⟨fun r hpublished => hred r (Or.inl hpublished), fun turn hturn hstrands => ?_⟩
    obtain ⟨r, hr, hs, hout⟩ :=
      Engine.made_of_strands hall turn (List.mem_append_right _ hturn) 1 hstrands
    exact hred r hr hs hout

end Fresh

/-- A run ends with 0 just when its rules could be loaded and, for every test that it offers, a pass
was the first report of its worker; so it does not if some test has another result, or if a worker
could not be started. A run with a crew ends in such a way, unless the project could not be set up,
and then it does not end with 0 either. -/
theorem run_is_green_iff (c : Config) (tree : FileTree) (screen : Screen) (processors : Nat)
    (dirs : List Path) (now : Moment) :
    let project := ofConfig c tree screen processors dirs
    (∀ (σ : Type) (crew : Crew σ) (workers : σ) (fuel : Nat) (v : Verdict),
      (carryOut project fun p => p.run crew workers now fuel) = some v →
        project = none ∧ v.code = 101 ∨ ∃ p, project = some p ∧
          ∃ e, p.RunsTo now (p.turns crew workers now fuel) e v.code) ∧
      ∀ p, project = some p → ∀ l e code, p.RunsTo now l e code →
        (code = 0 ↔ (p.session.selection.rules.reload tree).2 = .ok () ∧
          ∀ t, p.session.Offers tree (ClassFile.sound_source tree dirs) t →
            firstReport l ⟨1, t⟩ = some .pass) ∧
        (∀ r, .finished r ∈ e.desk.feed.published → r.session = 1 → r.outcome ≠ .pass →
          code = 1) ∧
        ∀ turn ∈ l, turn.strands? = some 1 → code = 1 := by
  intro project
  constructor
  · exact fun σ crew workers fuel v h => ends_of_carryOut project crew workers now fuel v h
  · rintro ⟨name, files, source, session, shown⟩ hproject l e code h
    obtain ⟨hp, hcan, htree, hsource, hcatalog⟩ := engine_of_ofConfig hproject
    dsimp only at htree hsource
    subst htree hsource
    have hred := h.red hp hcan
    exact ⟨h.code_eq_zero_iff hp hcan hcatalog (ClassFile.sound_source files dirs), hred.1, hred.2⟩

/-! A project with one test. -/

namespace Solo

def tree : FileTree :=
  ⟨.directory [("c", .directory
    [("A.class", .file (Session.Unscanned.testCase [65] [66]) default)])], []⟩

def config : Config := { name := "solo", command := ["w"] }

def project : Project := (ofConfig config tree {} 1 [⟨"c"⟩]).get (by decide)

theorem ofConfig_project : ofConfig config tree {} 1 [⟨"c"⟩] = some project :=
  (Option.some_get _).symm

theorem tests_runAll :
    Session.Unscanned.tests (project.session.runAll project.tree project.source default) =
      some ["A"] := by
  decide +kernel

def willing : Rehearsal := {}

def absent : Rehearsal := { refusals := [(1, .spawn "w" "no such file")] }

theorem code_willing : (project.run Rehearsal.crew willing default 40).map (·.code) = some 0 := by
  decide +kernel

theorem isSome_absent : (project.run Rehearsal.crew absent default 40).isSome = true := by
  decide +kernel

theorem strands_absent : (project.turns Rehearsal.crew absent default 40).any
    (fun turn => turn.strands? = some 1) = true := by
  decide +kernel

end Solo

/-- The one test passes by what its worker reports; without a worker the run is red. -/
theorem solo_run_is_green : ofConfig Solo.config Solo.tree {} 1 [⟨"c"⟩] = some Solo.project ∧
    (Solo.project.session.Offers Solo.tree (ClassFile.sound_source Solo.tree [⟨"c"⟩]) "A" ∧
      ∃ v, Solo.project.run Rehearsal.crew Solo.willing default 40 = some v ∧ v.code = 0 ∧
        firstReport (Solo.project.turns Rehearsal.crew Solo.willing default 40) ⟨1, "A"⟩ =
          some .pass) ∧
      ∃ v, Solo.project.run Rehearsal.crew Solo.absent default 40 = some v ∧ v.code = 1 := by
  obtain ⟨hends, hverdict⟩ := run_is_green_iff Solo.config Solo.tree {} 1 [⟨"c"⟩] default
  have hcarried {σ : Type} (crew : Crew σ) (workers : σ) (v : Verdict)
      (h : Solo.project.run crew workers default 40 = some v) :
      ∃ e, Solo.project.RunsTo default (Solo.project.turns crew workers default 40) e v.code := by
    have hrun : (carryOut (ofConfig Solo.config Solo.tree {} 1 [⟨"c"⟩]) fun p =>
        p.run crew workers default 40) = some v := by
      rw [Solo.ofConfig_project]
      exact h
    rcases hends σ crew workers 40 v hrun with ⟨hnone, -⟩ | ⟨p, hp, hruns⟩
    · rw [Solo.ofConfig_project] at hnone
      cases hnone
    · rw [Solo.ofConfig_project] at hp
      cases hp
      exact hruns
  refine ⟨Solo.ofConfig_project, ?_, ?_⟩
  · obtain ⟨u, hu, htests⟩ := Session.Unscanned.exists_tests Solo.tests_runAll
    have hoffers : Solo.project.session.Offers Solo.tree
        (ClassFile.sound_source Solo.tree [⟨"c"⟩]) "A" := by
      refine (mem_tests_iff (p := Solo.project) rfl _ hu "A").mp ?_
      rw [htests]
      exact List.mem_cons_self
    obtain ⟨v, hv, hcode⟩ := Option.map_eq_some_iff.mp Solo.code_willing
    obtain ⟨e, hruns⟩ := hcarried Rehearsal.crew Solo.willing v hv
    obtain ⟨-, hpassed⟩ := (hverdict _ Solo.ofConfig_project _ e v.code hruns).1.mp hcode
    exact ⟨hoffers, v, hv, hcode, hpassed "A" hoffers⟩
  · obtain ⟨v, hv⟩ := Option.isSome_iff_exists.mp Solo.isSome_absent
    obtain ⟨turn, hturn, hstrands⟩ := List.any_eq_true.mp Solo.strands_absent
    obtain ⟨e, hruns⟩ := hcarried Rehearsal.crew Solo.absent v hv
    exact ⟨v, hv, (hverdict _ Solo.ofConfig_project _ e v.code hruns).2.2 turn hturn
      (of_decide_eq_true hstrands)⟩

end Project

end Retest
