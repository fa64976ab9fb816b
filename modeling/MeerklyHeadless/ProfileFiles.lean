import MeerklyHeadless.BrowserClose
import MeerklyHeadless.BrowserReset
import MeerklyHeadless.GatewayDispatch
import MeerklyHeadless.ProxiedLaunches
import Mathlib.Tactic

/-!
# What a generation of the profile leaves behind

Engines keep what the sites gave them in files of the profile directory.  A
reset removes the files that identify a profile, one by one and whatever
becomes of the others, and leaves the cache.  A mark is put on what is written
while a generation runs, and handed on with every copy of it, so that the marks
an engine meets tell whose identity it shows.
-/

namespace MeerklyHeadless.Lifecycle

open JsonSchema
open TransitionRuns

/-! ## The profile directory -/

inductive NodeKind
  | file
  | directory
  /-- a symbolic link, dangling or not -/
  | link (toDirectory : Bool)
  deriving DecidableEq, Repr

/-- `Path.is_dir`, which follows links -/
def NodeKind.isDir : NodeKind → Bool
  | file => false
  | directory => true
  | link toDirectory => toDirectory

/-- An entry of the profile directory, with the generations whose sites left
something in it. -/
structure Node where
  kind : NodeKind
  marks : List ℕ
  deriving DecidableEq, Repr

abbrev Profile := String → Option Node

inductive RemovalError
  | notFound
  | osError (message : String)
  deriving DecidableEq, Repr

/-- How the system call comes out; a directory may have lost some of its
contents before it raises. -/
inductive Removal
  | removes
  | raises (err : RemovalError) (keeps : ℕ → Bool)

/-- `Path.unlink`; the error names the path, here the last part of it. -/
def unlink (removal : Removal) (name : String) (profile : Profile) :
    Except RemovalError Unit × Profile :=
  match profile name, removal with
  | none, _ => (.error .notFound, profile)
  | some ⟨.directory, _⟩, _ =>
      (.error (.osError ("[Errno 21] Is a directory: '" ++ name ++ "'")), profile)
  | some _, .removes => (.ok (), Function.update profile name none)
  | some _, .raises err _ => (.error err, profile)

/-- `shutil.rmtree` of what `is_dir` said is a directory -/
def rmtree (removal : Removal) (name : String) (profile : Profile) :
    Except RemovalError Unit × Profile :=
  match profile name, removal with
  | none, _ => (.error .notFound, profile)
  | some ⟨.link _, _⟩, _ => (.error (.osError "Cannot call rmtree on a symbolic link"), profile)
  | some _, .removes => (.ok (), Function.update profile name none)
  | some node, .raises err keeps =>
      (.error err, Function.update profile name
        (some { node with marks := node.marks.filter keeps }))

def profileLocks : List String := ["lock", ".parentlock", "parent.lock"]

def profileState : List String :=
  ["cookies.sqlite", "cookies.sqlite-wal", "cookies.sqlite-shm", "webappsstore.sqlite",
    "storage.sqlite", "sessionstore.jsonlz4", "storage", "sessionstore-backups"]

/-- The variables of the two loops, with the calls of the logger. -/
structure Clearing where
  profile : Profile
  dropped : List String
  log : List LogLine

def Clearing.warn (clearing : Clearing) (text name message : String) : Clearing :=
  { clearing with log := clearing.log ++
      [⟨.warn, text, [("file", .str name), ("error", .str message)]⟩] }

def clearState (removals : String → Removal) (clearing : Clearing) (name : String) : Clearing :=
  let remove := if (clearing.profile name).any (·.kind.isDir) then rmtree else unlink
  match remove (removals name) name clearing.profile with
  | (.ok (), profile) =>
      { clearing with profile := profile, dropped := clearing.dropped ++ [name] }
  | (.error .notFound, profile) => { clearing with profile := profile }
  | (.error (.osError message), profile) =>
      { clearing with profile := profile }.warn "Could not clear profile state" name message

def clearProfileState (removals : String → Removal) (profile : Profile) :
    Profile × List LogLine :=
  let cleared := profileState.foldl (clearState removals) ⟨profile, [], []⟩
  (cleared.profile, cleared.log ++
    if cleared.dropped = [] then []
    else [⟨.info, "Cleared profile cookies and site storage",
      [("dropped", .int cleared.dropped.length)]⟩])

def clearLock (removals : String → Removal) (clearing : Clearing) (name : String) : Clearing :=
  match unlink (removals name) name clearing.profile with
  | (.error (.osError message), profile) =>
      { clearing with profile := profile }.warn "Could not clear a stale profile lock" name message
  | (_, profile) => { clearing with profile := profile }

def clearProfileLocks (removals : String → Removal) (profile : Profile) :
    Profile × List LogLine :=
  let cleared := profileLocks.foldl (clearLock removals) ⟨profile, [], []⟩
  (cleared.profile, cleared.log)

/-! ## What a clearing removes -/

def Removal.succeeds : Removal → Bool
  | removes => true
  | raises _ _ => false

/-- Nothing keeps the entry from being removed: the system call succeeds, and
the entry is no link to a directory, which neither call takes. -/
def removable (entry : Option Node) (removal : Removal) : Bool :=
  entry.all fun node => removal.succeeds && node.kind != .link true

section Clearings

variable {removals : String → Removal} {name other : String}

theorem unlink_other (removal : Removal) (profile : Profile) (hother : other ≠ name) :
    (unlink removal name profile).2 other = profile other := by
  unfold unlink
  split <;> simp [hother]

theorem rmtree_other (removal : Removal) (profile : Profile) (hother : other ≠ name) :
    (rmtree removal name profile).2 other = profile other := by
  unfold rmtree
  split <;> simp [hother]

theorem unlink_none {removal : Removal} {profile : Profile} (hnone : profile name = none) :
    (unlink removal name profile).2 name = none := by
  simp [unlink, hnone]

theorem clearState_profile (clearing : Clearing) (name : String) :
    (clearState removals clearing name).profile =
      if (clearing.profile name).any (·.kind.isDir) then
        (rmtree (removals name) name clearing.profile).2
      else (unlink (removals name) name clearing.profile).2 := by
  unfold clearState
  dsimp only
  by_cases hdir : (clearing.profile name).any (·.kind.isDir) = true
  · rw [if_pos hdir, if_pos hdir]
    split <;> simp_all [Clearing.warn]
  · rw [if_neg hdir, if_neg hdir]
    split <;> simp_all [Clearing.warn]

theorem clearLock_profile (clearing : Clearing) (name : String) :
    (clearLock removals clearing name).profile =
      (unlink (removals name) name clearing.profile).2 := by
  unfold clearLock
  split <;> simp_all [Clearing.warn]

theorem clearState_other (clearing : Clearing) (hother : other ≠ name) :
    (clearState removals clearing name).profile other = clearing.profile other := by
  rw [clearState_profile]
  split_ifs
  · exact rmtree_other _ _ hother
  · exact unlink_other _ _ hother

theorem clearState_gone (clearing : Clearing)
    (hremovable : removable (clearing.profile name) (removals name) = true) :
    (clearState removals clearing name).profile name = none := by
  rw [clearState_profile]
  cases hnode : clearing.profile name with
  | none => simpa using unlink_none hnode
  | some node =>
      simp only [removable, hnode, Option.all_some, Bool.and_eq_true, bne_iff_ne] at hremovable
      obtain ⟨hsucceeds, hkind⟩ := hremovable
      have hremoves : removals name = .removes := by
        cases hremoval : removals name with
        | removes => rfl
        | raises _ _ => simp [hremoval, Removal.succeeds] at hsucceeds
      obtain ⟨kind, marks⟩ := node
      cases kind with
      | file => simp [NodeKind.isDir, unlink, hnode, hremoves]
      | directory => simp [NodeKind.isDir, rmtree, hnode, hremoves]
      | link toDirectory =>
          cases toDirectory with
          | false => simp [NodeKind.isDir, unlink, hnode, hremoves]
          | true => exact absurd rfl hkind

theorem foldl_clearState_other (names : List String) (clearing : Clearing)
    (hother : other ∉ names) :
    (names.foldl (clearState removals) clearing).profile other = clearing.profile other := by
  induction names generalizing clearing with
  | nil => rfl
  | cons name names ih =>
      rw [List.mem_cons, not_or] at hother
      rw [List.foldl_cons, ih _ hother.2, clearState_other _ hother.1]

/-- However the others come out, a file that can be removed is gone at the end. -/
theorem foldl_clearState_gone (names : List String) (clearing : Clearing) (hname : name ∈ names)
    (hremovable : removable (clearing.profile name) (removals name) = true) :
    (names.foldl (clearState removals) clearing).profile name = none := by
  induction names generalizing clearing with
  | nil => simp at hname
  | cons first names ih =>
      rw [List.foldl_cons]
      rcases eq_or_ne name first with rfl | hother
      · have hgone := clearState_gone clearing hremovable
        by_cases hlater : name ∈ names
        · exact ih _ hlater (by simp [removable, hgone])
        · rw [foldl_clearState_other names _ hlater, hgone]
      · have hlater : name ∈ names := (List.mem_cons.mp hname).resolve_left hother
        apply ih _ hlater
        rwa [clearState_other _ hother]

theorem clearProfileState_gone (profile : Profile) (hname : name ∈ profileState)
    (hremovable : removable (profile name) (removals name) = true) :
    (clearProfileState removals profile).1 name = none :=
  foldl_clearState_gone _ _ hname hremovable

theorem clearProfileState_other (profile : Profile) (hother : other ∉ profileState) :
    (clearProfileState removals profile).1 other = profile other :=
  foldl_clearState_other _ _ hother

theorem clearProfileLocks_other (profile : Profile) (hother : other ∉ profileLocks) :
    (clearProfileLocks removals profile).1 other = profile other := by
  have hloop : ∀ (names : List String) (clearing : Clearing), other ∉ names →
      (names.foldl (clearLock removals) clearing).profile other = clearing.profile other := by
    intro names
    induction names with
    | nil => exact fun _ _ => rfl
    | cons name names ih =>
        intro clearing hnames
        rw [List.mem_cons, not_or] at hnames
        rw [List.foldl_cons, ih _ hnames.2, clearLock_profile, unlink_other _ _ hnames.1]
  exact hloop _ _ hother

end Clearings

/-- A lock that dangles is removed like any other. -/
example : (clearProfileLocks (fun _ => .removes)
    (Function.update (fun _ => none) "lock" (some ⟨.link false, []⟩))).1 "lock" = none := by
  decide

/-! ## Engines on the profile -/

/-- The manager and its profile directory, and the marks that each engine has met. -/
structure Profiled where
  manager : Manager
  profile : Profile
  engines : List (Browser × List ℕ)

def Profiled.initial (config : BrowserConfig) (sid : ℕ) (profile : Profile) : Profiled where
  manager := .initial config sid
  profile := profile
  engines := []

inductive ProfileAction
  /-- a step of the manager, and how the removals in it come out -/
  | moves (action : Action) (removals : String → Removal)
  /-- an engine writes an entry of its profile, or removes it -/
  | stores (browser : Browser) (name : String) (entry : Option Node)

/-- The step of the job that calls `clear_profile_state`. -/
def clearsProfile (config : BrowserConfig) (state : Manager) : Action → Bool
  | .job _ =>
      match state.job with
      | .idle => resetDue config state && state.stack.isNone
      | .resetting _ => true
      | _ => false
  | _ => false

/-- The first step of `_launch`, which removes the locks. -/
def entersLaunch (state : Manager) : Action → Bool
  | .launch _ => state.launching = some .created
  | _ => false

def Manager.generation (state : Manager) : ℕ := state.clears.length

def isRunning (state : Manager) (browser : Browser) : Bool :=
  state.launching.bind LaunchPhase.browser? = some browser ∨ browser ∈ state.opened

def identityMarks (profile : Profile) : List ℕ :=
  profileState.flatMap fun name => (profile name).elim [] Node.marks

/-- What the manager's step does to the files of the profile. -/
def touchProfile (config : BrowserConfig) (manager : Manager) (action : Action)
    (removals : String → Removal) (profile : Profile) : Profile :=
  if clearsProfile config manager action then (clearProfileState removals profile).1
  else if entersLaunch manager action then (clearProfileLocks removals profile).1
  else profile

/-- An engine meets the marks of the identity it is started on and those of its
own generation; to the files that identify it, it writes no others. -/
def profiledStep (config : BrowserConfig) (state : Profiled) : ProfileAction → Option Profiled
  | .moves action removals =>
      (step config state.manager action).map fun manager =>
        let profile := touchProfile config state.manager action removals state.profile
        let started := if startsEngine state.manager action then
          manager.launching.bind LaunchPhase.browser? else none
        { manager := manager
          profile := profile
          engines := state.engines ++
            (started.map fun browser =>
              (browser, manager.generation :: identityMarks profile)).toList }
  | .stores browser name entry =>
      if isRunning state.manager browser ∧
          (name ∈ profileState → ∀ mark ∈ entry.elim [] Node.marks,
            ∃ met ∈ state.engines, met.1 = browser ∧ mark ∈ met.2) then
        some { state with profile := Function.update state.profile name entry }
      else none

/-! ## One step of the manager -/

section Steps

variable {config : BrowserConfig} {before after : Manager} {browser : Browser}

theorem inUse_of_isRunning (h : isRunning before browser = true) : InUse before browser := by
  simp only [isRunning, decide_eq_true_eq] at h
  exact h.imp id .inl

/-- `clear_profile_state` is called between a teardown and the crawl, in one step. -/
theorem jobStep_clears {sid : ℕ} (hclears : clearsProfile config before (.job sid) = true)
    (hstep : jobStep config sid before = some after) :
    ∃ torn, after = startFetch (resetProfile config sid torn) ∧ torn.clears = before.clears ∧
      (torn.page = none ∨
        ∃ closed, before.job = .resetting closed ∧ torn = aclosed closed before) := by
  unfold jobStep at hstep
  unfold clearsProfile at hclears
  cases hjob : before.job with
  | idle =>
      simp only [hjob, Bool.and_eq_true, Option.isNone_iff_eq_none] at hclears
      simp only [hjob, hclears.1, if_true, teardown, hclears.2, Option.some.injEq] at hstep
      exact ⟨_, hstep.symm, rfl, .inl rfl⟩
  | resetting closed =>
      simp only [hjob, Option.some.injEq] at hstep
      exact ⟨_, hstep.symm, rfl, .inr ⟨closed, rfl, rfl⟩⟩
  | awaitingLaunch _ | serving _ => simp [hjob] at hclears

theorem jobStep_keeps {sid : ℕ} (hclears : clearsProfile config before (.job sid) = false)
    (hstep : jobStep config sid before = some after) : after.clears = before.clears := by
  unfold jobStep at hstep
  unfold clearsProfile at hclears
  cases hjob : before.job with
  | idle =>
      simp only [hjob] at hclears hstep
      cases hdue : resetDue config before with
      | false =>
          simp only [hdue, Bool.false_eq_true, if_false, Option.some.injEq] at hstep
          rw [← hstep, (startFetch_fetched before).clears]
      | true =>
          simp only [hdue, Bool.true_and] at hclears
          obtain ⟨closed, hup⟩ := Option.isSome_iff_exists.mp (by simpa using hclears)
          simp only [hdue, if_true, teardown, hup, Option.some.injEq] at hstep
          rw [← hstep]
  | resetting closed => simp [hjob] at hclears
  | awaitingLaunch launch =>
      simp only [hjob] at hstep
      split at hstep
      · contradiction
      · simp only [Option.some.injEq] at hstep
        rw [← hstep, (serve_fetched before).clears]
      · simp only [Option.some.injEq] at hstep
        rw [← hstep, (finishJob_fetched before).clears]
  | serving _ =>
      simp only [hjob, Option.some.injEq] at hstep
      rw [← hstep, (finishJob_fetched before).clears]

theorem step_keeps {action : Action} (hclears : clearsProfile config before action = false)
    (hstep : step config before action = some after) : after.clears = before.clears := by
  cases step_moved hstep with
  | quiet hmoved => exact hmoved.clears
  | launch hmoved =>
      cases hmoved with
      | opens _ => exact (sweep_swept _ _ _).clears
      | sweeps _ => exact (sweep_swept _ _ _).clears
      | _ => rfl
  | job hmoved => exact jobStep_keeps hclears hstep

theorem reset_leaves_none {action : Action} (hpaired : Paired config before)
    (halone : resetAlone config before action = true)
    (hclears : clearsProfile config before action = true)
    (hstep : step config before action = some after) :
    after.generation = before.generation + 1 ∧ ∀ browser, ¬InUse after browser := by
  have hafter := hpaired.step halone hstep
  cases action with
  | job sid =>
      obtain ⟨torn, rfl, hsame, hpage⟩ := jobStep_clears hclears hstep
      have hdown : torn.page = none := by
        rcases hpage with hdown | ⟨closed, hresetting, rfl⟩
        · exact hdown
        · exact (hpaired.resetting closed hresetting).page
      have hfetched := startFetch_fetched (resetProfile config sid torn)
      have hlast : (startFetch (resetProfile config sid torn)).clears =
          before.clears ++ [⟨torn.jobsServed, torn.opened, torn.launching⟩] := by
        rw [hfetched.clears, resetProfile, hsame]
      refine ⟨by simp [Manager.generation, hlast], ?_⟩
      have hsafe := hafter.resets.clears _
        (hlast ▸ List.mem_append_right _ (List.mem_singleton_self _))
      rintro browser (hunder | hopened | ⟨page, hcurrent, _⟩ | ⟨page, hserving, _⟩)
      · obtain ⟨phase, hphase, hbrowser⟩ := Option.bind_eq_some_iff.mp hunder
        exact @not_held_of_quiescent torn hsafe.launching browser
          (LaunchKept.held hfetched.launching ⟨phase, hphase, hbrowser⟩)
      · rw [hfetched.opened] at hopened
        have hnone : torn.opened = [] := hsafe.opened
        simp [resetProfile, hnone] at hopened
      · rw [hfetched.page] at hcurrent
        simp [resetProfile, hdown] at hcurrent
      · have hcurrent := hfetched.serving page hserving
        simp [resetProfile, hdown] at hcurrent
  | _ => simp [clearsProfile] at hclears

theorem startsEngine_launch {action : Action} (hstarts : startsEngine before action = true)
    (hstep : step config before action = some after)
    (hunder : after.launching.bind LaunchPhase.browser? = some browser) :
    browser.launch = before.browsers ∧ before.browsers < after.browsers := by
  unfold startsEngine at hstarts
  split at hstarts
  next count =>
    have hcreated : before.launching = some .created := by simpa using hstarts
    simp only [step, launchStep, hcreated, Option.some.injEq] at hstep
    subst hstep
    simp only [startLaunch, Option.bind_some, LaunchPhase.browser?, Option.some.injEq] at hunder
    rw [← hunder]
    exact ⟨rfl, Nat.lt_succ_self _⟩
  · contradiction

end Steps

/-! ## Every run -/

/-- The files that identify the profile and what the running engines have met
of them come from the sites of the present generation only. -/
structure OneIdentity (state : Profiled) : Prop where
  stored : ∀ name ∈ profileState, ∀ node, state.profile name = some node →
    ∀ mark ∈ node.marks, mark = state.manager.generation
  met : ∀ entry ∈ state.engines, isRunning state.manager entry.1 = true →
    ∀ mark ∈ entry.2, mark = state.manager.generation

/-- A reset is alone, and each file of `PROFILE_STATE` can be removed in it. -/
def resetsClean (config : BrowserConfig) (state : Profiled) : ProfileAction → Bool
  | .moves action removals => resetAlone config state.manager action &&
      (!clearsProfile config state.manager action ||
        profileState.all fun name => removable (state.profile name) (removals name))
  | .stores _ _ _ => true

structure Isolated (config : BrowserConfig) (state : Profiled) : Prop where
  paired : Paired config state.manager
  stored : ∀ name ∈ profileState, ∀ node, state.profile name = some node →
    ∀ mark ∈ node.marks, mark = state.manager.generation
  met : ∀ entry ∈ state.engines, InUse state.manager entry.1 →
    ∀ mark ∈ entry.2, mark = state.manager.generation
  numbered : ∀ entry ∈ state.engines, entry.1.launch < state.manager.browsers

section Runs

variable {config : BrowserConfig} {state after : Profiled} {removals : String → Removal}

theorem resetsClean_moves {action : Action}
    (h : resetsClean config state (.moves action removals) = true) :
    resetAlone config state.manager action = true ∧
      (clearsProfile config state.manager action = true → ∀ name ∈ profileState,
        removable (state.profile name) (removals name) = true) := by
  simp only [resetsClean, Bool.and_eq_true, Bool.or_eq_true, Bool.not_eq_true',
    List.all_eq_true] at h
  refine ⟨h.1, fun hclears => h.2.resolve_left ?_⟩
  simp [hclears]

theorem profileLocks_disjoint : ∀ name ∈ profileState, name ∉ profileLocks := by decide

theorem mem_identityMarks {profile : Profile} {mark : ℕ} (h : mark ∈ identityMarks profile) :
    ∃ name ∈ profileState, ∃ node, profile name = some node ∧ mark ∈ node.marks := by
  obtain ⟨name, hname, hmark⟩ := List.mem_flatMap.mp h
  cases hnode : profile name with
  | none => simp [hnode] at hmark
  | some node => exact ⟨name, hname, node, hnode, by simpa [hnode] using hmark⟩

/-- What the step leaves of the identity is of the generation after it. -/
theorem Isolated.touched (h : Isolated config state) {action : Action} {manager : Manager}
    (hclean : resetsClean config state (.moves action removals) = true)
    (hstep : step config state.manager action = some manager) :
    ∀ name ∈ profileState, ∀ node,
      touchProfile config state.manager action removals state.profile name = some node →
        ∀ mark ∈ node.marks, mark = manager.generation := by
  intro name hname node hnode mark hmark
  unfold touchProfile at hnode
  cases hclears : clearsProfile config state.manager action with
  | true =>
      simp only [hclears, if_true] at hnode
      rw [clearProfileState_gone _ hname ((resetsClean_moves hclean).2 hclears name hname)] at hnode
      contradiction
  | false =>
      have hsame : manager.generation = state.manager.generation := by
        rw [Manager.generation, Manager.generation, step_keeps hclears hstep]
      rw [hsame]
      apply h.stored name hname node _ mark hmark
      simp only [hclears, Bool.false_eq_true, if_false] at hnode
      split_ifs at hnode
      · rwa [clearProfileLocks_other _ (profileLocks_disjoint name hname)] at hnode
      · exact hnode

theorem Isolated.moves (h : Isolated config state) {action : Action}
    (hclean : resetsClean config state (.moves action removals) = true)
    (hstep : profiledStep config state (.moves action removals) = some after) :
    Isolated config after := by
  simp only [profiledStep, Option.map_eq_some_iff] at hstep
  obtain ⟨manager, hmanager, rfl⟩ := hstep
  have htouched := h.touched hclean hmanager
  have halone := (resetsClean_moves hclean).1
  have hbrowsers := (step_frame hmanager).browsers
  have hstarted : ∀ entry ∈ ((if startsEngine state.manager action then
        manager.launching.bind LaunchPhase.browser? else none).map fun browser =>
      (browser, manager.generation ::
        identityMarks (touchProfile config state.manager action removals state.profile))).toList,
      entry.1.launch < manager.browsers ∧ ∀ mark ∈ entry.2, mark = manager.generation := by
    intro entry hentry
    simp only [Option.mem_toList, Option.map_eq_some_iff, Option.ite_none_right_eq_some] at hentry
    obtain ⟨browser, ⟨hstarts, hunder⟩, rfl⟩ := hentry
    obtain ⟨hnumber, hlt⟩ := startsEngine_launch hstarts hmanager hunder
    refine ⟨hnumber ▸ hlt, fun mark hmark => ?_⟩
    rcases List.mem_cons.mp hmark with rfl | hmet
    · rfl
    · obtain ⟨name, hname, node, hnode, hmark⟩ := mem_identityMarks hmet
      exact htouched name hname node hnode mark hmark
  refine ⟨h.paired.step halone hmanager, htouched, ?_, ?_⟩
  · intro entry hentry hin
    rcases List.mem_append.mp hentry with hearlier | hnow
    · cases hclears : clearsProfile config state.manager action with
      | true =>
          exact absurd hin ((reset_leaves_none h.paired halone hclears hmanager).2 entry.1)
      | false =>
          have hsame : manager.generation = state.manager.generation := by
            rw [Manager.generation, Manager.generation, step_keeps hclears hmanager]
          rw [hsame]
          rcases step_inUse hmanager hin with hbefore | ⟨hstarts, hunder⟩
          · exact h.met entry hearlier hbefore
          · have hnumber := (startsEngine_launch hstarts hmanager hunder).1
            exact absurd (h.numbered entry hearlier) hnumber.not_lt
    · exact (hstarted entry hnow).2
  · intro entry hentry
    rcases List.mem_append.mp hentry with hearlier | hnow
    · exact (h.numbered entry hearlier).trans_le hbrowsers
    · exact (hstarted entry hnow).1

theorem Isolated.stores (h : Isolated config state) {browser : Browser} {name : String}
    {entry : Option Node}
    (hstep : profiledStep config state (.stores browser name entry) = some after) :
    Isolated config after := by
  simp only [profiledStep, Option.ite_none_right_eq_some, Option.some.injEq] at hstep
  obtain ⟨⟨hrunning, hmarks⟩, rfl⟩ := hstep
  refine ⟨h.paired, ?_, h.met, h.numbered⟩
  intro other hother node hnode mark hmark
  rcases eq_or_ne other name with rfl | hne
  · simp only [Function.update_self] at hnode
    obtain ⟨met, hmet, hsame, hcarries⟩ := hmarks hother mark (by simpa [hnode] using hmark)
    apply h.met met hmet _ mark hcarries
    rw [hsame]
    exact inUse_of_isRunning hrunning
  · simp only [Function.update_of_ne hne] at hnode
    exact h.stored other hother node hnode mark hmark

theorem Isolated.step (h : Isolated config state) {action : ProfileAction}
    (hclean : resetsClean config state action = true)
    (hstep : profiledStep config state action = some after) : Isolated config after := by
  cases action with
  | moves _ _ => exact h.moves hclean hstep
  | stores _ _ _ => exact h.stores hstep

/-- The profile of an earlier process belongs to the first generation: in every
run with clean resets no engine, and no file that identifies the profile, knows
of another generation than the present one. -/
theorem one_identity_per_generation (config : BrowserConfig) (sid : ℕ) (profile : Profile)
    (hprofile : ∀ name ∈ profileState, ∀ node, profile name = some node →
      ∀ mark ∈ node.marks, mark = 0) (state : Profiled)
    (hreach : Reachable (profiledStep config)
      (fun before action => resetsClean config before action = true)
      (.initial config sid profile) state) : OneIdentity state := by
  have hinitial : Isolated config (.initial config sid profile) :=
    { paired := .initial sid
      stored := hprofile
      met := by simp [Profiled.initial]
      numbered := by simp [Profiled.initial] }
  have hisolated := hreach.invariant hinitial fun _ _ _ h hclean hstep => h.step hclean hstep
  exact
    { stored := hisolated.stored
      met := fun entry hentry hrunning =>
        hisolated.met entry hentry (inUse_of_isRunning hrunning) }

/-! The first engine keeps a cookie; the second starts without it. -/

def unhindered (_ : String) : Removal := .removes

def cookieTrace : List ProfileAction :=
  launchTrace.map (.moves · unhindered) ++
    [.stores firstBrowser "cookies.sqlite" (some ⟨.file, [0]⟩),
      .stores firstBrowser "cache2" (some ⟨.directory, [0]⟩)] ++
    [.job 222, .job 222, .job 222, .job 222, .launch (.returns 0)].map (.moves · unhindered)

theorem one_identity_per_generation_cookie :
    ∃ state, state.profile "cache2" = some ⟨.directory, [0]⟩ ∧
      state.engines = [(firstBrowser, [0]), (⟨1, some 222⟩, [1])] ∧ OneIdentity state := by
  have hstate : (exec (guarded (resetsClean exampleConfig) (profiledStep exampleConfig))
      (.initial exampleConfig 111 fun _ => none) cookieTrace).map (fun state =>
        (state.profile "cache2", state.engines)) =
      some (some ⟨.directory, [0]⟩, [(firstBrowser, [0]), (⟨1, some 222⟩, [1])]) := by
    decide +kernel
  obtain ⟨state, hexec, hvalues⟩ := Option.map_eq_some_iff.mp hstate
  simp only [Prod.mk.injEq] at hvalues
  exact ⟨state, hvalues.1, hvalues.2, one_identity_per_generation exampleConfig 111 _ (by simp)
    state ⟨_, run_of_exec_guarded hexec⟩⟩

/-- Whatever is reset and launched, the manager leaves every other file alone. -/
theorem cache_outlives_resets (config : BrowserConfig) (sid : ℕ) (profile : Profile)
    (trace : List ProfileAction) (state : Profiled)
    (hrun : Run (profiledStep config) Always (.initial config sid profile) trace state)
    (name : String) (hname : name ∉ profileState ∧ name ∉ profileLocks)
    (hstores : ∀ browser entry, .stores browser name entry ∉ trace) :
    state.profile name = profile name := by
  induction hrun with
  | nil => rfl
  | @snoc trace before after action _ _ hstep ih =>
      rw [← ih fun browser entry hmem => hstores browser entry (List.mem_append_left _ hmem)]
      cases action with
      | moves action removals =>
          simp only [profiledStep, Option.map_eq_some_iff] at hstep
          obtain ⟨manager, _, rfl⟩ := hstep
          simp only [touchProfile]
          split_ifs
          · exact clearProfileState_other _ hname.1
          · exact clearProfileLocks_other _ hname.2
          · rfl
      | stores browser other entry =>
          simp only [profiledStep, Option.ite_none_right_eq_some, Option.some.injEq] at hstep
          obtain ⟨_, rfl⟩ := hstep
          have hne : name ≠ other := by
            rintro rfl
            exact hstores browser entry (List.mem_append_right _ (List.mem_singleton_self _))
          exact Function.update_of_ne hne _ _

end Runs

end MeerklyHeadless.Lifecycle
