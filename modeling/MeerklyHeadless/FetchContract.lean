import MeerklyHeadless.FetchSpec
import Mathlib.Tactic

/-!
# The parser and the schema of a fetch frame

The frame schema and `parseFetchFrame` are two descriptions of one wire format.
The parser brings every usable frame into a normal form, and on the frames that
the schema allows it drops and changes nothing but the blanks it fills in.
-/

namespace MeerklyHeadless

open JsonSchema

/-! ## The schema -/

def waitForSchema : Schema := .type [.string]

def settleMsSchema : Schema :=
  Schema.keywords [.type [.integer], .minimum 0, .maximum 25000]

def detectMsSchema : Schema :=
  Schema.keywords [.type [.integer], .minimum 0, .maximum 25000]

def waitRuleSchema : Schema := Schema.keywords [
  .type [.object],
  .property "if" (.both (.type [.string]) (.minLength 1)),
  .property "then" (.type [.string]),
  .required ["if"],
  .noAdditional ["if", "then"]]

def waitRulesSchema : Schema := .both (.type [.array]) (.items waitRuleSchema)

/-- `$defs.fetch` of the frame schema. -/
def fetchSchema : Schema := Schema.keywords [
  .type [.object],
  .property "type" (.const "fetch"),
  .property "jobId" (.both (.type [.string]) (.minLength 1)),
  .property "url" (.both (.type [.string]) (.minLength 1)),
  .property "waitFor" waitForSchema,
  .property "settleMs" settleMsSchema,
  .property "waitRules" waitRulesSchema,
  .property "detectMs" detectMsSchema,
  .required ["type", "jobId", "url"]]

/-! ## Normal form -/

/-- The dicts that `parse_fetch_frame` returns. -/
def WaitRule.toDict (rule : WaitRule) : Dict :=
  [("if", .str rule.guard), ("then", .str rule.target)]

def Job.toDict (job : Job) : Dict :=
  [("jobId", .str job.jobId), ("url", .str job.url), ("waitFor", .str job.waitFor),
    ("settleMs", .int job.settleMs),
    ("waitRules", .arr (job.waitRules.map fun rule => .obj rule.toDict)),
    ("detectMs", .int job.detectMs)]

/-- An object with a non-empty text under `if`. -/
def hasGuard : Json → Bool
  | .obj rule =>
      match Dict.get rule "if" with
      | .str guard => guard != ""
      | _ => false
  | _ => false

/-- The rule that stands for an entry with a guard. -/
def RuleOf (entry : Json) (rule : WaitRule) : Prop :=
  ∃ fields, entry = .obj fields ∧ Dict.get fields "if" = .str rule.guard ∧
    (Dict.get fields "then" = .str rule.target ∨
      rule.target = "" ∧ ∀ text, Dict.get fields "then" ≠ .str text)

def waitRuleEntries : Json → List Json
  | .obj msg =>
      match Dict.get msg "waitRules" with
      | .arr entries => entries
      | _ => []
  | _ => []

structure NormalForm (msg : Json) (job : Job) : Prop where
  jobId : job.jobId ≠ ""
  url : job.url ≠ ""
  waitFor : job.waitFor ≠ ""
  waitRules : List.Forall₂ RuleOf ((waitRuleEntries msg).filter hasGuard) job.waitRules
  stable : parseFetchFrame (.obj job.toDict) = some job

theorem nonEmptyString_eq_some {value : Json} {text : String}
    (h : nonEmptyString value = some text) : value = .str text ∧ text ≠ "" := by
  cases value with
  | str found =>
      simp only [nonEmptyString, Option.ite_none_left_eq_some, Option.some.injEq] at h
      obtain ⟨hne, rfl⟩ := h
      exact ⟨rfl, hne⟩
  | _ => simp [nonEmptyString] at h

theorem nonEmptyString_str {text : String} (h : text ≠ "") :
    nonEmptyString (.str text) = some text := by
  simp [nonEmptyString, h]

theorem nonEmptyString_isSome_iff (entry : Dict) :
    (nonEmptyString (Dict.get entry "if")).isSome = hasGuard (.obj entry) := by
  cases hguard : Dict.get entry "if" with
  | str guard => by_cases h : guard = "" <;> simp [hasGuard, hguard, nonEmptyString, h]
  | _ => simp [hasGuard, hguard, nonEmptyString]

/-- An entry is dropped exactly when it has no guard. -/
theorem parseWaitRule_cases (entry : Json) :
    hasGuard entry = false ∧ parseWaitRule entry = none ∨
      hasGuard entry = true ∧ ∃ rule, parseWaitRule entry = some rule ∧
        RuleOf entry rule ∧ rule.guard ≠ "" := by
  cases entry with
  | obj fields =>
      have hiff := nonEmptyString_isSome_iff fields
      cases hguard : nonEmptyString (Dict.get fields "if") with
      | none =>
          rw [hguard] at hiff
          exact .inl ⟨hiff.symm, by simp [parseWaitRule, hguard]⟩
      | some guard =>
          rw [hguard] at hiff
          obtain ⟨hget, hne⟩ := nonEmptyString_eq_some hguard
          refine .inr ⟨hiff.symm, ?_⟩
          cases hthen : Dict.get fields "then" with
          | str target =>
              exact ⟨⟨guard, target⟩, by simp [parseWaitRule, hguard, hthen],
                ⟨fields, rfl, hget, .inl hthen⟩, hne⟩
          | _ =>
              exact ⟨⟨guard, ""⟩, by simp [parseWaitRule, hguard, hthen],
                ⟨fields, rfl, hget, .inr ⟨rfl, by simp [hthen]⟩⟩, hne⟩
  | _ => exact .inl ⟨rfl, rfl⟩

theorem filterMap_parseWaitRule (entries : List Json) :
    List.Forall₂ RuleOf (entries.filter hasGuard) (entries.filterMap parseWaitRule) := by
  induction entries with
  | nil => exact .nil
  | cons entry rest ih =>
      rcases parseWaitRule_cases entry with ⟨hnot, hnone⟩ | ⟨hguard, rule, hrule, hof, _⟩
      · simpa [hnot, hnone] using ih
      · simpa [hguard, hrule] using List.Forall₂.cons hof ih

theorem guard_ne_empty {entries : List Json} {rule : WaitRule}
    (h : rule ∈ entries.filterMap parseWaitRule) : rule.guard ≠ "" := by
  obtain ⟨entry, _, hparse⟩ := List.mem_filterMap.mp h
  rcases parseWaitRule_cases entry with ⟨_, hnone⟩ | ⟨_, found, hfound, _, hne⟩
  · rw [hnone] at hparse
    contradiction
  · rw [hfound, Option.some.injEq] at hparse
    exact hparse ▸ hne

theorem parseWaitRule_toDict {rule : WaitRule} (h : rule.guard ≠ "") :
    parseWaitRule (.obj rule.toDict) = some rule := by
  simp [parseWaitRule, WaitRule.toDict, Dict.get, List.lookup_cons, nonEmptyString_str h]

theorem parseFetchFrame_toDict {job : Job} (hjobId : job.jobId ≠ "") (hurl : job.url ≠ "")
    (hwaitFor : job.waitFor ≠ "") (hguards : ∀ rule ∈ job.waitRules, rule.guard ≠ "") :
    parseFetchFrame (.obj job.toDict) = some job := by
  have hrules : (job.waitRules.map fun rule => Json.obj rule.toDict).filterMap parseWaitRule =
      job.waitRules := by
    rw [List.filterMap_map]
    refine (List.filterMap_congr fun rule hrule => ?_).trans List.filterMap_some
    exact parseWaitRule_toDict (hguards rule hrule)
  simp [parseFetchFrame, Job.toDict, Dict.get, List.lookup_cons, nonEmptyString_str, hjobId,
    hurl, hwaitFor, hrules, positiveInt]

/-- The job that a frame with usable `jobId` and `url` is parsed to. -/
def parsedJob (msg : Dict) (jobId url : String) : Job where
  jobId := jobId
  url := url
  waitFor := (nonEmptyString (Dict.get msg "waitFor")).getD waitForDefault
  settleMs := positiveInt (Dict.get msg "settleMs")
  waitRules := (waitRuleEntries (.obj msg)).filterMap parseWaitRule
  detectMs := positiveInt (Dict.get msg "detectMs")

theorem parseFetchFrame_of_texts (msg : Dict) {jobId url : String}
    (hjobId : nonEmptyString (Dict.get msg "jobId") = some jobId)
    (hurl : nonEmptyString (Dict.get msg "url") = some url) :
    parseFetchFrame (.obj msg) = some (parsedJob msg jobId url) := by
  simp only [parseFetchFrame, hjobId, hurl, parsedJob]
  cases hrules : Dict.get msg "waitRules" <;> simp [waitRuleEntries, hrules]

theorem parseFetchFrame_eq_some {msg : Json} {job : Job} (h : parseFetchFrame msg = some job) :
    ∃ fields jobId url, msg = .obj fields ∧
      nonEmptyString (Dict.get fields "jobId") = some jobId ∧
      nonEmptyString (Dict.get fields "url") = some url ∧
      job = parsedJob fields jobId url := by
  cases msg with
  | obj fields =>
      cases hjobId : nonEmptyString (Dict.get fields "jobId") with
      | none => simp [parseFetchFrame, hjobId] at h
      | some jobId =>
          cases hurl : nonEmptyString (Dict.get fields "url") with
          | none => simp [parseFetchFrame, hjobId, hurl] at h
          | some url =>
              rw [parseFetchFrame_of_texts _ hjobId hurl, Option.some.injEq] at h
              exact ⟨fields, jobId, url, rfl, hjobId, hurl, h.symm⟩
  | _ => simp [parseFetchFrame] at h

theorem parseFetchFrame_normalForm {msg : Json} {job : Job}
    (h : parseFetchFrame msg = some job) : NormalForm msg job := by
  obtain ⟨fields, jobId, url, rfl, hjobId, hurl, rfl⟩ := parseFetchFrame_eq_some h
  have hjobIdNe := (nonEmptyString_eq_some hjobId).2
  have hurlNe := (nonEmptyString_eq_some hurl).2
  have hwaitFor : (parsedJob fields jobId url).waitFor ≠ "" := by
    cases hwait : nonEmptyString (Dict.get fields "waitFor") with
    | none => simp [parsedJob, hwait, waitForDefault]
    | some text => simpa [parsedJob, hwait] using (nonEmptyString_eq_some hwait).2
  exact
    { jobId := hjobIdNe
      url := hurlNe
      waitFor := hwaitFor
      waitRules := filterMap_parseWaitRule _
      stable := parseFetchFrame_toDict hjobIdNe hurlNe hwaitFor fun _ => guard_ne_empty }

/-! ## Valid frames -/

/-- A rule as the schema allows it, with the target filled in. -/
def RuleKept (entry : Json) (rule : WaitRule) : Prop :=
  ∃ fields, entry = .obj fields ∧ fields.lookup "if" = some (.str rule.guard) ∧
    (fields.lookup "then" = some (.str rule.target) ∨
      fields.lookup "then" = none ∧ rule.target = "")

/-- A number keeps its value, an absent one becomes zero. -/
def NumberKept (field : Option Json) (parsed : ℕ) : Prop :=
  match field with
  | none => parsed = 0
  | some value => value.number? = some (parsed : ℚ)

def WaitForKept (field : Option Json) (parsed : String) : Prop :=
  match field with
  | none => parsed = waitForDefault
  | some value => value = .str parsed ∨ value = .str "" ∧ parsed = waitForDefault

def RulesKept (field : Option Json) (parsed : List WaitRule) : Prop :=
  match field with
  | none => parsed = []
  | some value => ∃ entries, value = .arr entries ∧ List.Forall₂ RuleKept entries parsed

/-- Every field of the frame is in the job; only blanks are filled in. -/
structure FieldsKept (fields : Dict) (job : Job) : Prop where
  jobId : fields.lookup "jobId" = some (.str job.jobId)
  url : fields.lookup "url" = some (.str job.url)
  waitFor : WaitForKept (fields.lookup "waitFor") job.waitFor
  settleMs : NumberKept (fields.lookup "settleMs") job.settleMs
  detectMs : NumberKept (fields.lookup "detectMs") job.detectMs
  waitRules : RulesKept (fields.lookup "waitRules") job.waitRules

theorem string_of_valid {value : Json} (h : (Schema.type [.string]).Valid value) :
    ∃ text, value = .str text := by
  cases value <;> simp_all [Schema.Valid, JsonType.Matches]

theorem nonEmpty_of_valid {value : Json}
    (h : (Schema.both (.type [.string]) (.minLength 1)).Valid value) :
    ∃ text, value = .str text ∧ text ≠ "" := by
  obtain ⟨text, rfl⟩ := string_of_valid h.1
  refine ⟨text, rfl, ?_⟩
  rintro rfl
  exact absurd h.2 (by simp [Schema.Valid])

theorem positiveInt_of_integer {value : Json} (htype : JsonType.integer.Matches value)
    (hmin : ∀ number ∈ value.number?, 0 ≤ number) :
    value.number? = some (positiveInt value : ℚ) := by
  cases value with
  | int value =>
      have hpos : (0 : ℚ) ≤ value := hmin _ rfl
      have hcast : (value.toNat : ℚ) = value := by
        rw [← Int.cast_natCast, Int.toNat_of_nonneg (by exact_mod_cast hpos)]
      rw [Json.number?, positiveInt, hcast]
  | float value =>
      cases value with
      | finite value =>
          have hpos : 0 ≤ value := hmin _ rfl
          have hwhole : (⌊value⌋ : ℚ) = value := by
            rw [← Rat.coe_int_num_of_den_eq_one htype, Int.floor_intCast]
          rcases hpos.eq_or_lt with rfl | hlt
          · simp [Json.number?, positiveInt]
          · have hfloor : 0 ≤ ⌊value⌋ := Int.floor_nonneg.mpr hpos
            have hcast : (⌊value⌋.toNat : ℚ) = value := by
              rw [← Int.cast_natCast, Int.toNat_of_nonneg hfloor, hwhole]
            rw [Json.number?, positiveInt, if_pos hlt, hcast]
      | _ => simp [JsonType.Matches] at htype
  | _ => simp [JsonType.Matches] at htype

theorem numberKept_of_valid {field : Option Json}
    (h : ∀ value ∈ field, (Schema.keywords [.type [.integer], .minimum 0,
      .maximum 25000]).Valid value) :
    NumberKept field (positiveInt (field.getD .null)) := by
  cases field with
  | none => rfl
  | some value =>
      have hvalid := h value rfl
      simp only [Schema.valid_keywords_cons, Schema.Valid, List.mem_singleton,
        exists_eq_left] at hvalid
      exact positiveInt_of_integer hvalid.1 hvalid.2.1

theorem waitForKept_of_valid {field : Option Json}
    (h : ∀ value ∈ field, waitForSchema.Valid value) :
    WaitForKept field ((nonEmptyString (field.getD .null)).getD waitForDefault) := by
  cases field with
  | none => rfl
  | some value =>
      obtain ⟨text, rfl⟩ := string_of_valid (h value rfl)
      by_cases hempty : text = ""
      · exact .inr ⟨by rw [hempty], by simp [nonEmptyString, hempty]⟩
      · exact .inl (by simp [nonEmptyString, hempty])

theorem ruleKept_of_valid {entry : Json} (h : waitRuleSchema.Valid entry) :
    ∃ rule, parseWaitRule entry = some rule ∧ RuleKept entry rule := by
  simp only [waitRuleSchema, Schema.valid_keywords_cons] at h
  obtain ⟨hobject, hif, hthen, hrequired, _⟩ := h
  cases entry with
  | obj fields =>
      obtain ⟨found, hfound⟩ := Option.isSome_iff_exists.mp
        (hrequired "if" (List.mem_singleton_self _))
      obtain ⟨guard, rfl, hne⟩ := nonEmpty_of_valid (hif found hfound)
      have hget : Dict.get fields "if" = .str guard := by simp [Dict.get, hfound]
      cases hlookup : fields.lookup "then" with
      | none =>
          refine ⟨⟨guard, ""⟩, ?_, fields, rfl, hfound, .inr ⟨hlookup, rfl⟩⟩
          have hthenGet : Dict.get fields "then" = .null := by simp [Dict.get, hlookup]
          simp [parseWaitRule, hget, nonEmptyString_str hne, hthenGet]
      | some value =>
          obtain ⟨target, rfl⟩ := string_of_valid (hthen value hlookup)
          refine ⟨⟨guard, target⟩, ?_, fields, rfl, hfound, .inl hlookup⟩
          have hthenGet : Dict.get fields "then" = .str target := by simp [Dict.get, hlookup]
          simp [parseWaitRule, hget, nonEmptyString_str hne, hthenGet]
  | _ => simp [Schema.Valid, JsonType.Matches] at hobject

theorem rulesKept_of_valid {fields : Dict}
    (h : ∀ value ∈ fields.lookup "waitRules", waitRulesSchema.Valid value) :
    RulesKept (fields.lookup "waitRules")
      ((waitRuleEntries (.obj fields)).filterMap parseWaitRule) := by
  cases hlookup : fields.lookup "waitRules" with
  | none => simp [RulesKept, waitRuleEntries, Dict.get, hlookup]
  | some value =>
      obtain ⟨harray, hitems⟩ := h value hlookup
      cases value with
      | arr entries =>
          refine ⟨entries, rfl, ?_⟩
          simp only [waitRuleEntries, Dict.get, hlookup, Option.getD_some]
          clear harray hlookup h
          induction entries with
          | nil => exact .nil
          | cons entry rest ih =>
              obtain ⟨rule, hrule, hkept⟩ := ruleKept_of_valid
                (hitems entry (List.mem_cons_self ..))
              rw [List.filterMap_cons, hrule]
              exact .cons hkept (ih fun other hother => hitems other
                (List.mem_cons_of_mem _ hother))
      | _ => simp [Schema.Valid, JsonType.Matches] at harray

theorem parseFetchFrame_of_valid {msg : Json} (h : fetchSchema.Valid msg) :
    ∃ fields job, msg = .obj fields ∧ parseFetchFrame msg = some job ∧
      FieldsKept fields job := by
  simp only [fetchSchema, Schema.valid_keywords_cons] at h
  obtain ⟨hobject, _, hjobId, hurl, hwaitFor, hsettle, hrules, hdetect, hrequired, _⟩ := h
  cases msg with
  | obj fields =>
      obtain ⟨found, hfound⟩ := Option.isSome_iff_exists.mp (hrequired "jobId" (by simp))
      obtain ⟨jobId, rfl, hjobIdNe⟩ := nonEmpty_of_valid (hjobId found hfound)
      obtain ⟨other, hother⟩ := Option.isSome_iff_exists.mp (hrequired "url" (by simp))
      obtain ⟨url, rfl, hurlNe⟩ := nonEmpty_of_valid (hurl other hother)
      have hparsed := parseFetchFrame_of_texts fields
        (by rw [Dict.get, hfound]; exact nonEmptyString_str hjobIdNe)
        (by rw [Dict.get, hother]; exact nonEmptyString_str hurlNe)
      exact ⟨fields, _, rfl, hparsed,
        { jobId := hfound
          url := hother
          waitFor := waitForKept_of_valid hwaitFor
          settleMs := numberKept_of_valid hsettle
          detectMs := numberKept_of_valid hdetect
          waitRules := rulesKept_of_valid hrules }⟩
  | _ => simp [Schema.Valid, JsonType.Matches] at hobject

/-! ## Agreement -/

structure AgreesWithSchema (msg : Json) : Prop where
  normal : ∀ job, parseFetchFrame msg = some job → NormalForm msg job
  kept : fetchSchema.Valid msg → ∃ fields job, msg = .obj fields ∧
    parseFetchFrame msg = some job ∧ FieldsKept fields job

theorem parseFetchFrame_agrees (msg : Json) : AgreesWithSchema msg :=
  ⟨fun _ => parseFetchFrame_normalForm, parseFetchFrame_of_valid⟩

/-- A frame that the schema allows, and its job. -/
example :
    let msg := Json.obj [("type", .str "fetch"), ("jobId", .str "job-1"),
      ("url", .str "https://example.com/"), ("settleMs", .int 1200),
      ("waitRules", .arr [.obj [("if", .str "#ready"), ("then", .str "networkidle")]])]
    fetchSchema.Valid msg ∧ parseFetchFrame msg =
      some ⟨"job-1", "https://example.com/", waitForDefault, 1200, [⟨"#ready", "networkidle"⟩],
        0⟩ := by
  refine ⟨?_, rfl⟩
  simp [fetchSchema, waitForSchema, settleMsSchema, waitRulesSchema, waitRuleSchema,
    detectMsSchema, Schema.Valid, JsonType.Matches, Json.number?, List.lookup_cons]
  decide

end MeerklyHeadless
