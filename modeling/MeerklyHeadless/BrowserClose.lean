import MeerklyHeadless.BrowserOwnership
import Mathlib.Tactic

/-!
# After close

`close` tears down what it finds in the stack field and waits for that only.
A launch never asks whether the manager is closed, and another teardown may
still be closing its engine.  In a run where each launch puts its stack into
an empty field, the engines that are open are those held by the field and by
the teardowns; this says exactly when `close` leaves none behind.
-/

namespace MeerklyHeadless.Lifecycle

open TransitionRuns

variable {config : BrowserConfig}

/-! ## The browsers that are held -/

def RecoverPhase.closing? : RecoverPhase → Option Browser
  | closing browser => some browser
  | _ => none

def JobPhase.closing? : JobPhase → Option Browser
  | resetting browser => some browser
  | _ => none

def ClosePhase.closing? : ClosePhase → Option Browser
  | closing browser => some browser
  | _ => none

/-- The browsers that a teardown in progress is closing. -/
def closerList (state : Manager) : List Browser :=
  state.recoveries.filterMap RecoverPhase.closing? ++
    state.job.closing?.toList ++ state.closing.closing?.toList

def ownerList (state : Manager) : List Browser :=
  state.stack.toList ++ closerList state

theorem mem_closerList {state : Manager} {browser : Browser} :
    browser ∈ closerList state ↔ Closing state browser := by
  have hrecovery : browser ∈ state.recoveries.filterMap RecoverPhase.closing? ↔
      .closing browser ∈ state.recoveries := by
    rw [List.mem_filterMap]
    constructor
    · rintro ⟨phase, hphase, hcloses⟩
      cases phase with
      | closing other =>
          rw [RecoverPhase.closing?, Option.some.injEq] at hcloses
          exact hcloses ▸ hphase
      | _ => simp [RecoverPhase.closing?] at hcloses
    · intro hphase
      exact ⟨_, hphase, rfl⟩
  have hjob : browser ∈ state.job.closing?.toList ↔ state.job = .resetting browser := by
    cases state.job <;> simp [JobPhase.closing?, eq_comm]
  have hclose : browser ∈ state.closing.closing?.toList ↔ state.closing = .closing browser := by
    cases state.closing <;> simp [ClosePhase.closing?, eq_comm]
  simp only [closerList, List.mem_append, hrecovery, hjob, hclose, Closing, or_assoc]

theorem mem_ownerList {state : Manager} {browser : Browser} :
    browser ∈ ownerList state ↔ state.stack = some browser ∨ Closing state browser := by
  rw [ownerList, List.mem_append, mem_closerList, Option.mem_toList]

theorem length_ownerList (state : Manager) : (ownerList state).length = owners state := by
  have hrecoveries : (state.recoveries.filterMap RecoverPhase.closing?).length =
      state.recoveries.countP RecoverPhase.closes := by
    rw [List.length_filterMap_eq_countP]
    apply List.countP_congr
    intro phase _
    cases phase <;> simp [RecoverPhase.closing?, RecoverPhase.closes]
  have hstack : state.stack.toList.length = state.stack.isSome.toNat := by
    cases state.stack <;> rfl
  have hjob : state.job.closing?.toList.length = state.job.closes.toNat := by
    cases state.job <;> rfl
  have hclose : state.closing.closing?.toList.length = state.closing.closes.toNat := by
    cases state.closing <;> rfl
  simp only [ownerList, closerList, List.length_append, owners, hrecoveries, hstack, hjob,
    hclose]
  omega

/-! ## Frames of a step -/

/-- A launch numbers its browser when it starts, and only `close` moves its
own phase. -/
structure StepFrame (before : Manager) (action : Action) (after : Manager) : Prop where
  browsers : before.browsers ≤ after.browsers
  entering : ∀ browser, after.launching = some (.entering browser) →
    before.launching = some (.entering browser) ∨
      browser.launch = before.browsers ∧ before.browsers < after.browsers
  closing : action = .close ∨ after.closing = before.closing

theorem StepFrame.of_same {before after : Manager} {action : Action}
    (hbrowsers : after.browsers = before.browsers)
    (hentering : ∀ browser, after.launching = some (.entering browser) →
      before.launching = some (.entering browser))
    (hclosing : after.closing = before.closing) : StepFrame before action after :=
  ⟨hbrowsers.ge, fun browser h => .inl (hentering browser h), .inr hclosing⟩

theorem ensureBrowser_frame (action : Action) (state : Manager) :
    StepFrame state action (ensureBrowser state).1 := by
  rcases ensureBrowser_cases state with hsame | ⟨_, hcreated⟩
  · rw [hsame]
    exact .of_same rfl (fun _ h => h) rfl
  · rw [hcreated]
    exact .of_same rfl (by simp) rfl

theorem sweep_frame (action : Action) (browser : Browser) (stale : List Page)
    (state : Manager) : StepFrame state action (sweep browser stale state) := by
  have hswept := sweep_swept browser stale state
  have hbrowsers : (sweep browser stale state).browsers = state.browsers := by
    cases stale with
    | nil =>
        simp only [sweep, subscribe]
        split <;> rfl
    | cons page rest => rfl
  refine .of_same hbrowsers (fun other hentering => ?_) hswept.closing
  rcases hswept.launching with hnone | ⟨rest, hsweeping⟩
  · simp [hnone] at hentering
  · simp [hsweeping] at hentering

theorem serve_frame {action : Action} (state : Manager) :
    StepFrame state action (serve state) := by
  unfold serve
  cases state.page with
  | none => exact .of_same rfl (fun _ h => h) rfl
  | some page => exact .of_same rfl (fun _ h => h) rfl

theorem startFetch_frame (action : Action) (state : Manager) :
    StepFrame state action (startFetch state) := by
  unfold startFetch ensureBrowser
  split_ifs
  · exact .of_same rfl (fun _ h => h) rfl
  · exact serve_frame state
  · cases hlaunching : state.launching with
    | none => exact .of_same rfl (by simp) rfl
    | some phase => exact .of_same rfl (by simp [hlaunching]) rfl

theorem LaunchMoved.frame {outcome : Outcome} {action : Action} {before after : Manager}
    (hmoved : LaunchMoved config before outcome after) : StepFrame before action after := by
  cases hmoved with
  | fails _ => exact .of_same rfl (by simp [finishLaunch]) rfl
  | starts _ =>
      refine ⟨Nat.le_succ _, fun browser hentering => .inr ?_, .inr rfl⟩
      simp only [startLaunch, Option.some.injEq, LaunchPhase.entering.injEq] at hentering
      rw [← hentering]
      exact ⟨rfl, Nat.lt_succ_self _⟩
  | comesUp _ => exact .of_same rfl (by simp [publish]) rfl
  | @opens browser stale _ _ =>
      have hswept := sweep_frame action browser stale (adoptPage browser before)
      exact ⟨hswept.browsers, hswept.entering, hswept.closing⟩
  | sweeps _ => exact sweep_frame _ _ _ _

theorem JobMoved.frame {sid : ℕ} {action : Action} {before after : Manager}
    (hmoved : JobMoved config sid before after) : StepFrame before action after := by
  cases hmoved with
  | begins _ _ => exact startFetch_frame _ before
  | resets _ _ _ =>
      have hfetched := startFetch_frame action
        (resetProfile config sid (teardown before).1)
      exact ⟨hfetched.browsers, hfetched.entering, hfetched.closing⟩
  | tearsDown _ _ _ => exact .of_same rfl (fun _ h => h) rfl
  | @torn browser _ =>
      have hfetched := startFetch_frame action
        (resetProfile config sid (aclosed browser before))
      exact ⟨hfetched.browsers, hfetched.entering, hfetched.closing⟩
  | serves _ _ => exact serve_frame before
  | ends _ => exact .of_same rfl (fun _ h => h) rfl

theorem RecoverMoved.frame {index : ℕ} {action : Action} {before after : Manager}
    (hmoved : RecoverMoved index before after) : StepFrame before action after := by
  cases hmoved with
  | findsNone _ _ | tearsDown _ _ | torn _ | ends _ _ => exact .of_same rfl (fun _ h => h) rfl
  | relaunches _ _ =>
      have hensured := ensureBrowser_frame action before
      exact ⟨hensured.browsers, hensured.entering, hensured.closing⟩

theorem CloseMoved.frame {before after : Manager} (hmoved : CloseMoved before after) :
    StepFrame before .close after := by
  cases hmoved with
  | findsNone _ _ | tearsDown _ _ | torn _ =>
      exact ⟨le_refl _, fun browser h => .inl h, .inl rfl⟩

theorem step_frame {before after : Manager} {action : Action}
    (hstep : step config before action = some after) : StepFrame before action after := by
  cases action with
  | ensureBrowser =>
      simp only [step, Option.some.injEq] at hstep
      subst hstep
      exact ensureBrowser_frame _ before
  | launch outcome => exact (launchStep_moved hstep).frame
  | pageEvent page =>
      simp only [step, Option.ite_none_right_eq_some, Option.some.injEq] at hstep
      obtain ⟨_, rfl⟩ := hstep
      unfold onExtraPage
      split
      · exact .of_same rfl (fun _ h => h) rfl
      · split_ifs <;> exact .of_same rfl (fun _ h => h) rfl
  | contextCloses _ | pageCrashes _ | pageCloses _ | pageOpens _ | closeExtra _ =>
      simp only [step, Option.ite_none_right_eq_some, Option.some.injEq] at hstep
      obtain ⟨_, rfl⟩ := hstep
      exact .of_same rfl (fun _ h => h) rfl
  | recover index => exact (recoverStep_moved hstep).frame
  | job sid => exact (jobStep_moved hstep).frame
  | close => exact (closeStep_moved hstep).frame

/-! ## Held and open -/

/-- The browsers that are held are those that are open, each of them once. -/
structure Matched (state : Manager) : Prop where
  owners : (ownerList state).Perm state.opened
  nodup : state.opened.Nodup
  numbered : ∀ browser ∈ state.opened, browser.launch < state.browsers
  entering : ∀ browser, state.launching = some (.entering browser) →
    browser.launch < state.browsers ∧ browser ∉ state.opened

theorem Matched.initial (sid : ℕ) : Matched (.initial config sid) where
  owners := by
    simp [ownerList, closerList, Manager.initial, JobPhase.closing?, ClosePhase.closing?]
  nodup := by simp [Manager.initial]
  numbered := by simp [Manager.initial]
  entering := by simp [Manager.initial]

theorem Matched.mem_opened_iff {state : Manager} (h : Matched state) {browser : Browser} :
    browser ∈ state.opened ↔ state.stack = some browser ∨ Closing state browser := by
  rw [← h.owners.mem_iff, mem_ownerList]

/-- A launch puts its stack into the field only when the field is empty. -/
def comesUpOverNone (state : Manager) (action : Action) : Bool :=
  match state.launching, action with
  | some (.entering _), .launch (.returns _) => state.stack.isNone
  | _, _ => true

theorem OwnersKept.perm {before after : Manager} (h : Matched before)
    (hkept : OwnersKept before after) : (ownerList after).Perm after.opened := by
  have hnodup : (ownerList before).Nodup := h.owners.nodup_iff.mpr h.nodup
  have hstays : ∀ browser ∈ ownerList before, browser ∈ after.opened →
      browser ∈ ownerList after := by
    intro browser hbefore hopened
    exact mem_ownerList.mpr (hkept.owned browser hopened (mem_ownerList.mp hbefore))
  have hbefore := length_ownerList before
  have hafter := length_ownerList after
  cases hkept.moved with
  | kept hopened howners =>
      have hsubset : ownerList before ⊆ ownerList after := by
        intro browser hmem
        exact hstays browser hmem (hopened ▸ h.owners.mem_iff.mp hmem)
      have hperm : (ownerList before).Perm (ownerList after) :=
        (hnodup.subperm hsubset).perm_of_length_le (by omega)
      rw [hopened]
      exact hperm.symm.trans h.owners
  | aclosed browser hclosing hopened howners =>
      have hmem : browser ∈ ownerList before := mem_ownerList.mpr (.inr hclosing)
      have herase : after.opened = before.opened.erase browser := by
        rw [hopened, h.nodup.erase_eq_filter]
        apply List.filter_congr
        intro other _
        by_cases heq : other = browser <;> simp [heq]
      have hsubset : (ownerList before).erase browser ⊆ ownerList after := by
        intro other hother
        obtain ⟨hne, hheld⟩ := hnodup.mem_erase_iff.mp hother
        apply hstays other hheld
        rw [herase]
        exact (h.nodup.mem_erase_iff).mpr ⟨hne, h.owners.mem_iff.mp hheld⟩
      have hlength := List.length_erase_of_mem hmem
      have hperm : ((ownerList before).erase browser).Perm (ownerList after) :=
        ((hnodup.erase browser).subperm hsubset).perm_of_length_le (by omega)
      rw [herase]
      exact hperm.symm.trans (h.owners.erase browser)

theorem Matched.step {before after : Manager} {action : Action} (h : Matched before)
    (hover : comesUpOverNone before action = true)
    (hstep : step config before action = some after) : Matched after := by
  have hframe := step_frame hstep
  rcases step_ownersKept hstep with hkept | ⟨browser, count, hentering, rfl, rfl⟩
  · have hsublist := hkept.moved.sublist
    refine ⟨hkept.perm h, h.nodup.sublist hsublist, ?_, ?_⟩
    · intro browser hopened
      exact (h.numbered browser (hsublist.subset hopened)).trans_le hframe.browsers
    · intro browser hentering
      rcases hframe.entering browser hentering with hold | ⟨hnumber, hlater⟩
      · obtain ⟨hlt, hnot⟩ := h.entering browser hold
        exact ⟨hlt.trans_le hframe.browsers, fun hopened => hnot (hsublist.subset hopened)⟩
      · refine ⟨hnumber ▸ hlater, fun hopened => ?_⟩
        have hlt := h.numbered browser (hsublist.subset hopened)
        omega
  · have hstack : before.stack = none := by
      simpa [comesUpOverNone, hentering] using hover
    obtain ⟨hlt, hnot⟩ := h.entering browser hentering
    constructor
    · have hheld : ownerList (publish browser count before) = browser :: ownerList before := by
        simp [ownerList, closerList, publish, hstack]
      rw [hheld]
      exact h.owners.cons browser
    · exact List.nodup_cons.mpr ⟨hnot, h.nodup⟩
    · intro other hopened
      rcases List.mem_cons.mp hopened with rfl | hold
      · exact hlt
      · exact h.numbered other hold
    · simp [publish]

/-! ## A browser that was dropped -/

/-- Nobody holds the browser any more, and nobody will. -/
structure Dropped (state : Manager) (browser : Browser) : Prop where
  opened : browser ∈ state.opened
  numbered : browser.launch < state.browsers
  unheld : ¬(state.stack = some browser ∨ Closing state browser)
  entered : state.launching ≠ some (.entering browser)

theorem Dropped.step {before after : Manager} {action : Action} {browser : Browser}
    (h : Dropped before browser) (hstep : step config before action = some after) :
    Dropped after browser := by
  have hframe := step_frame hstep
  have hentered : after.launching ≠ some (.entering browser) := by
    intro hentering
    rcases hframe.entering browser hentering with hold | ⟨hnumber, _⟩
    · exact h.entered hold
    · have hlt := h.numbered
      omega
  refine ⟨?_, h.numbered.trans_le hframe.browsers, ?_, hentered⟩
  · rcases step_ownersKept hstep with hkept | ⟨other, count, _, rfl, rfl⟩
    · cases hkept.moved with
      | kept hopened _ => exact hopened ▸ h.opened
      | aclosed other hclosing hopened _ =>
          rw [hopened, List.mem_filter, decide_eq_true_eq]
          refine ⟨h.opened, ?_⟩
          rintro rfl
          exact h.unheld (.inr hclosing)
    · exact List.mem_cons_of_mem _ h.opened
  · rcases step_ownersKept hstep with hkept | ⟨other, count, hentering, rfl, rfl⟩
    · exact fun howner => h.unheld (hkept.back browser howner)
    · rintro (hstacked | hclosing)
      · simp only [publish, Option.some.injEq] at hstacked
        exact h.entered (hstacked ▸ hentering)
      · exact h.unheld (.inr hclosing)

/-- A launch that puts its stack over another one drops the other's browser. -/
theorem dropped_of_comesUp {before after : Manager} {action : Action} (h : Matched before)
    (hover : comesUpOverNone before action = false)
    (hstep : step config before action = some after) : ∃ browser, Dropped after browser := by
  unfold comesUpOverNone at hover
  split at hover
  next browser count hentering =>
    have hpublished : publish browser count before = after := by
      simpa [step, launchStep, hentering] using hstep
    obtain ⟨old, hstack⟩ := Option.isSome_iff_exists.mp (Option.isNone_eq_false_iff.mp hover)
    have hopened : old ∈ before.opened := h.mem_opened_iff.mpr (.inl hstack)
    have hne : browser ≠ old := by
      rintro rfl
      exact (h.entering browser hentering).2 hopened
    have hheld : (ownerList before).Nodup := h.owners.nodup_iff.mpr h.nodup
    subst hpublished
    refine ⟨old, List.mem_cons_of_mem _ hopened, h.numbered old hopened, ?_, by simp [publish]⟩
    rintro (hstacked | hclosing)
    · simp only [publish, Option.some.injEq] at hstacked
      exact hne hstacked
    · -- the field held it, so no teardown does
      rw [ownerList, hstack, Option.toList_some, List.singleton_append,
        List.nodup_cons] at hheld
      exact hheld.1 (mem_closerList.mpr hclosing)
  · contradiction

/-! ## The last step of close -/

def closeReturns (state : Manager) : Bool :=
  match state.closing with
  | .notCalled => state.stack.isNone
  | .closing _ => true
  | .returned => false

/-- Nothing was published after `close` emptied the field, and no other
teardown is closing an engine. -/
def closesLast (state : Manager) : Bool :=
  state.stack.isNone && !state.recoveries.any RecoverPhase.closes && !state.job.closes

/-- A launch publishes over an empty field and before `close` has returned,
and `close` returns when nothing else is held. -/
def leavesNone (state : Manager) (action : Action) : Bool :=
  match action with
  | .launch (.returns _) =>
      match state.launching with
      | some (.entering _) => state.stack.isNone && decide (state.closing ≠ .returned)
      | _ => true
  | .close => !closeReturns state || closesLast state
  | _ => true

theorem CloseMoved.returned {before after : Manager} (hmoved : CloseMoved before after) :
    after.closing = .returned ↔ closeReturns before = true := by
  cases hmoved with
  | findsNone hnotCalled hdown => simp [closeReturns, hnotCalled, hdown]
  | tearsDown hnotCalled hup => simp [closeReturns, hnotCalled, hup]
  | torn hclosing => simp [closeReturns, hclosing]

theorem CloseMoved.owners {before after : Manager} (hmoved : CloseMoved before after)
    (hreturns : closeReturns before = true) :
    owners after = 0 ↔ closesLast before = true := by
  have hsame : after.stack = before.stack ∧ after.recoveries = before.recoveries ∧
      after.job = before.job ∧ after.closing = .returned := by
    cases hmoved with
    | findsNone _ hdown => exact ⟨hdown.symm, rfl, rfl, rfl⟩
    | tearsDown hnotCalled hup => simp [closeReturns, hnotCalled, hup] at hreturns
    | torn _ => exact ⟨rfl, rfl, rfl, rfl⟩
  rw [owners_eq_zero_iff]
  simp [closesLast, tearingDown, hsame, ClosePhase.closes, and_assoc]

/-! ## Whole runs -/

def NoneLeft (state : Manager) : Prop := state.closing = .returned → state.opened = []

theorem Matched.opened_nil_iff {state : Manager} (h : Matched state) :
    state.opened = [] ↔ Lifecycle.owners state = 0 := by
  rw [← length_ownerList, h.owners.length_eq, List.length_eq_zero_iff]

theorem comesUpOverNone_of_leavesNone {state : Manager} {action : Action}
    (hleaves : leavesNone state action = true) : comesUpOverNone state action = true := by
  unfold comesUpOverNone
  split
  next browser count hentering =>
    simp only [leavesNone, hentering, Bool.and_eq_true] at hleaves
    exact hleaves.1
  · rfl

theorem NoneLeft.step {before after : Manager} {action : Action} (h : NoneLeft before)
    (hmatched : Matched before) (hleaves : leavesNone before action = true)
    (hstep : step config before action = some after) : NoneLeft after := by
  intro hreturned
  have hafter : Matched after :=
    hmatched.step (comesUpOverNone_of_leavesNone hleaves) hstep
  rcases (step_frame hstep).closing with rfl | hsame
  · have hreturns := (closeStep_moved hstep).returned.mp hreturned
    rw [hafter.opened_nil_iff, (closeStep_moved hstep).owners hreturns]
    simpa [leavesNone, hreturns] using hleaves
  · have hbefore : before.closing = .returned := hsame ▸ hreturned
    rcases step_ownersKept hstep with hkept | ⟨browser, count, hentering, rfl, rfl⟩
    · have hsublist := hkept.moved.sublist
      rw [h hbefore] at hsublist
      exact List.sublist_nil.mp hsublist
    · simp [leavesNone, hentering, hbefore] at hleaves

structure CloseInvariant (state : Manager) : Prop where
  matched : Matched state
  noneLeft : NoneLeft state

theorem closeInvariant_of_run {sid : ℕ} {trace : List Action} {state : Manager}
    (hrun : Run (step config) (fun before action => leavesNone before action = true)
      (.initial config sid) trace state) : CloseInvariant state := by
  refine hrun.invariant ?_ ?_
  · refine ⟨.initial sid, fun hreturned => ?_⟩
    simp [Manager.initial] at hreturned
  · intro before action after h hleaves hstep
    exact ⟨h.matched.step (comesUpOverNone_of_leavesNone hleaves) hstep,
      h.noneLeft.step h.matched hleaves hstep⟩

/-- The first step that is not clean drops a browser, or leaves one open now. -/
theorem dropped_or_left {before after : Manager} {action : Action} (hmatched : Matched before)
    (hleaves : leavesNone before action = false)
    (hstep : step config before action = some after) :
    (∃ browser, Dropped after browser) ∨ ¬NoneLeft after := by
  by_cases hover : comesUpOverNone before action = true
  · right
    have hafter := hmatched.step hover hstep
    intro hnone
    unfold leavesNone at hleaves
    split at hleaves
    · next count =>
        split at hleaves
        next launching browser hentering =>
          have hpublished : publish browser count before = after := by
            simpa [Lifecycle.step, launchStep, hentering] using hstep
          have hstack : before.stack.isNone = true := by
            simpa only [comesUpOverNone, hentering] using hover
          have hreturned : before.closing = .returned := by
            simpa only [hstack, Bool.true_and, decide_eq_false_iff_not, not_not] using hleaves
          subst hpublished
          have hempty := hnone hreturned
          simp [publish] at hempty
        · contradiction
    · have hboth : closeReturns before = true ∧ closesLast before = false := by
        simpa using hleaves
      have hreturned := (closeStep_moved hstep).returned.mpr hboth.1
      have hempty := hafter.opened_nil_iff.mp (hnone hreturned)
      rw [(closeStep_moved hstep).owners hboth.1, hboth.2] at hempty
      contradiction
    · contradiction
  · left
    exact dropped_of_comesUp hmatched (by simpa using hover) hstep

/-- Of any run: its steps are clean, or it has dropped a browser, or it came
through a state in which `close` has left one. -/
theorem run_cases {sid : ℕ} {trace : List Action} {state : Manager}
    (hrun : Run (step config) Always (.initial config sid) trace state) :
    Run (step config) (fun before action => leavesNone before action = true)
        (.initial config sid) trace state ∨
      (∃ browser, Dropped state browser) ∨
      ∃ before, before <+: trace ∧ ∃ reached,
        Run (step config) Always (.initial config sid) before reached ∧ ¬NoneLeft reached := by
  induction hrun with
  | nil => exact .inl .nil
  | @snoc trace middle next action hbefore _ henabled ih =>
      rcases ih with hclean | ⟨browser, hdropped⟩ | ⟨before, hbegins, hleft⟩
      · cases hleaves : leavesNone middle action with
        | true => exact .inl (hclean.snoc hleaves henabled)
        | false =>
            right
            rcases dropped_or_left (closeInvariant_of_run hclean).matched hleaves henabled with
              hdropped | hleft
            · exact .inl hdropped
            · exact .inr ⟨_, List.prefix_rfl, next, hbefore.snoc trivial henabled, hleft⟩
      · exact .inr (.inl ⟨browser, hdropped.step henabled⟩)
      · exact .inr (.inr ⟨before, hbegins.trans (List.prefix_append trace [action]), hleft⟩)

theorem step_returned {before after : Manager} {action : Action}
    (hreturned : before.closing = .returned)
    (hstep : step config before action = some after) : after.closing = .returned := by
  rcases (step_frame hstep).closing with rfl | hsame
  · simp [step, closeStep, hreturned] at hstep
  · exact hsame.trans hreturned

theorem returned_of_earlier {sid : ℕ} {trace before : List Action} {state reached : Manager}
    (hrun : Run (step config) Always (.initial config sid) trace state)
    (hbegins : before <+: trace)
    (hreached : Run (step config) Always (.initial config sid) before reached)
    (hreturned : reached.closing = .returned) : state.closing = .returned := by
  induction hrun with
  | nil =>
      rw [List.prefix_nil] at hbegins
      subst hbegins
      rwa [hreached.unique (Run.nil : Run (step config) Always _ [] _)] at hreturned
  | snoc hearlier hmeets henabled ih =>
      rcases List.prefix_concat_iff.mp hbegins with rfl | hshorter
      · rwa [hreached.unique (hearlier.snoc hmeets henabled)] at hreturned
      · exact step_returned (ih hshorter) henabled

/-- In a run, no engine is open in any state after `close` has returned exactly
when, if it has returned, every step was clean. -/
theorem close_leaves_none_iff (config : BrowserConfig) (sid : ℕ) (trace : List Action)
    (state : Manager) (hrun : Run (step config) Always (.initial config sid) trace state) :
    (∀ before, before <+: trace → ∀ reached,
        Run (step config) Always (.initial config sid) before reached → NoneLeft reached) ↔
      (state.closing = .returned →
        Run (step config) (fun before action => leavesNone before action = true)
          (.initial config sid) trace state) := by
  constructor
  · intro hnone hreturned
    rcases run_cases hrun with
      hclean | ⟨browser, hdropped⟩ | ⟨before, hbegins, reached, hreached, hleft⟩
    · exact hclean
    · have hempty := hnone trace List.prefix_rfl state hrun hreturned
      have hopened := hdropped.opened
      simp [hempty] at hopened
    · exact absurd (hnone before hbegins reached hreached) hleft
  · intro hclean before hbegins reached hreached hreturned
    have hfinal := returned_of_earlier hrun hbegins hreached hreturned
    obtain ⟨middle, hmiddle⟩ := (hclean hfinal).earlier hbegins
    rw [hreached.unique hmiddle] at hreturned ⊢
    exact (closeInvariant_of_run hmiddle).noneLeft hreturned

/-! ## A launch that close does not see -/

def closedTrace : List Action := launchTrace ++ [.close, .close]

theorem close_leaves_none_iff_after_launch :
    ∃ state : Manager, state.closing = .returned ∧ ∀ before, before <+: closedTrace → ∀ reached,
      Run (step exampleConfig) Always (.initial exampleConfig 111) before reached →
        NoneLeft reached := by
  have hstate : (exec (guarded leavesNone (step exampleConfig))
      (.initial exampleConfig 111) closedTrace).map Manager.closing = some .returned := by
    decide +kernel
  obtain ⟨state, hexec, hreturned⟩ := Option.map_eq_some_iff.mp hstate
  have hclean := run_of_exec_guarded hexec
  exact ⟨state, hreturned, (close_leaves_none_iff exampleConfig 111 closedTrace state
    (hclean.weaken fun _ _ _ => trivial)).mpr fun _ => hclean⟩

/-- `close` is called while the launch is entering its stack: the field is
empty, `close` returns, and then the engine comes up. -/
def closeWhileEnteringTrace : List Action :=
  [.ensureBrowser, .launch (.returns 0), .close, .launch (.returns 1)]

theorem close_leaves_entering_launch :
    ∃ state, Reachable (step exampleConfig) Always (.initial exampleConfig 111) state ∧
      state.closing = .returned ∧ state.opened = [firstBrowser] ∧ ¬NoneLeft state := by
  have hstate : (exec (step exampleConfig) (.initial exampleConfig 111)
      closeWhileEnteringTrace).map (fun state => (state.closing, state.opened)) =
      some (.returned, [firstBrowser]) := by
    decide +kernel
  obtain ⟨state, hexec, hvalues⟩ := Option.map_eq_some_iff.mp hstate
  simp only [Prod.mk.injEq] at hvalues
  obtain ⟨hreturned, hopened⟩ := hvalues
  refine ⟨state, reachable_of_exec hexec, hreturned, hopened, fun hnone => ?_⟩
  simp [hnone hreturned] at hopened

end MeerklyHeadless.Lifecycle
