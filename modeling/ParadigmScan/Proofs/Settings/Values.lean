import ParadigmScan.Proofs.Table
import ParadigmScan.Settings.Basic

/-!
This module contains which values the settings can have, and what becomes of values of all settings together: the
first setting with a value that it cannot have is reported, and otherwise every setting has its value.
-/

namespace ParadigmScan

namespace Value

def isText : Value → Bool
  | text _ => true
  | _ => false

def holdsNul : Value → Bool
  | text value => Path.hasNul value
  | _ => false

end Value

namespace Settings

def accepts (key : String) (value : Value) : Bool :=
  match key, value with
  | "exclude_patterns", .list items => items.all Value.isText
  | "encoding", .text name => !Path.hasNul name && (Encoding.ofName? name).isSome
  | "follow_symlinks", .boolean _ => true
  | "verbosity", .text name => (Verbosity.all.map Verbosity.name).contains name
  | "log_file", .null => true
  | "log_file", .text _ => true
  | _, _ => false

/--
The failure is the one about a value that a setting cannot have. The source of the value is named if it is
known. That a name cannot even be looked up is not reported as a problem with the setting.
-/
def Refuses (key : String) (value : Value) (source : Option String) (failure : Failure) : Prop :=
  if key = "encoding" ∧ value.holdsNul = true then failure = .fault .nulInName
  else ∃ reason, failure = .problem (.invalidSetting key value reason source)

/--
A check keeps the values that its setting can have and refuses the others. `shown` gives the value of the
setting back.
-/
structure Checks {α : Type} (key : String) (check : Value → Except Failure α) (shown : α → Value) :
    Prop where
  accepted {value : Value} : accepts key value = true →
    ∃ result, check value = .ok result ∧ shown result = value
  refused {value : Value} : accepts key value = false →
    ∃ failure, check value = .error failure ∧ Refuses key value none failure

theorem refuses_invalid {key : String} {value : Value} (hkey : key ≠ "encoding") (reason : String) :
    Refuses key value none (invalid key value reason) := by
  unfold Refuses
  simp only [hkey, false_and, ↓reduceIte]
  exact ⟨reason, rfl⟩

theorem textsOf?_eq_some {items : List Value} (h : items.all Value.isText = true) :
    ∃ texts, textsOf? items = some texts ∧ texts.map Value.text = items := by
  induction items with
  | nil => exact ⟨[], rfl, rfl⟩
  | cons item items ih =>
    simp only [List.all_cons, Bool.and_eq_true] at h
    obtain ⟨texts, htexts, rfl⟩ := ih h.2
    cases item with
    | text value => exact ⟨value :: texts, by simp [textsOf?, htexts], rfl⟩
    | _ => simp [Value.isText] at h

theorem textsOf?_eq_none {items : List Value} (h : items.all Value.isText = false) :
    textsOf? items = none := by
  induction items with
  | nil => simp at h
  | cons item items ih =>
    cases item with
    | text value =>
      simp only [List.all_cons, Value.isText, Bool.true_and] at h
      simp [textsOf?, ih h]
    | _ => rfl

theorem checks_patterns :
    Checks "exclude_patterns" checkPatterns fun patterns => .list (patterns.map Value.text) where
  accepted {value} h := by
    cases value with
    | list items =>
      obtain ⟨texts, htexts, rfl⟩ := textsOf?_eq_some h
      exact ⟨texts, by simp [checkPatterns, htexts], rfl⟩
    | _ => simp [accepts] at h
  refused {value} h := by
    refine ⟨_, ?_, refuses_invalid (by decide) "must be a list of strings"⟩
    cases value with
    | list items => simp [checkPatterns, textsOf?_eq_none h]
    | _ => rfl

theorem checks_encoding : Checks "encoding" checkEncoding Value.text where
  accepted {value} h := by
    cases value with
    | text name =>
      simp only [accepts, Bool.and_eq_true, Bool.not_eq_eq_eq_not, Bool.not_true] at h
      exact ⟨name, by simp [checkEncoding, h], rfl⟩
    | _ => simp [accepts] at h
  refused {value} h := by
    cases value with
    | text name =>
      cases hnul : Path.hasNul name with
      | true =>
        refine ⟨.fault .nulInName, by simp [checkEncoding, hnul], ?_⟩
        simp [Refuses, Value.holdsNul, hnul]
      | false =>
        simp only [accepts, hnul, Bool.not_false, Bool.true_and] at h
        refine ⟨invalid "encoding" (.text name) "unknown text encoding",
          by simp [checkEncoding, hnul, h], ?_⟩
        simp [Refuses, Value.holdsNul, hnul, invalid]
    | _ => exact ⟨_, rfl, by simp [Refuses, Value.holdsNul, invalid]⟩

theorem checks_follow : Checks "follow_symlinks" checkFollow Value.boolean where
  accepted {value} h := by
    cases value with
    | boolean flag => exact ⟨flag, rfl, rfl⟩
    | _ => simp [accepts] at h
  refused {value} h := by
    refine ⟨_, ?_, refuses_invalid (by decide) "must be true or false"⟩
    cases value with
    | boolean flag => simp [accepts] at h
    | _ => rfl

theorem ofName?_eq_some {name : String}
    (h : (Verbosity.all.map Verbosity.name).contains name = true) :
    ∃ verbosity, Verbosity.ofName? name = some verbosity ∧ verbosity.name = name := by
  simp only [List.contains_eq_mem, List.mem_map, decide_eq_true_eq] at h
  obtain ⟨verbosity, -, rfl⟩ := h
  cases verbosity <;> exact ⟨_, rfl, rfl⟩

theorem ofName?_eq_none {name : String}
    (h : (Verbosity.all.map Verbosity.name).contains name = false) :
    Verbosity.ofName? name = none := by
  unfold Verbosity.ofName?
  rw [List.find?_eq_none]
  intro verbosity hmem
  simp only [List.contains_eq_mem, List.mem_map, decide_eq_false_iff_not] at h
  simpa using fun hname => h ⟨verbosity, hmem, hname⟩

theorem checks_verbosity :
    Checks "verbosity" checkVerbosity fun verbosity => .text verbosity.name where
  accepted {value} h := by
    cases value with
    | text name =>
      obtain ⟨verbosity, hfound, hname⟩ := ofName?_eq_some h
      exact ⟨verbosity, by simp [checkVerbosity, hfound], by rw [hname]⟩
    | _ => simp [accepts] at h
  refused {value} h := by
    let names := ", ".intercalate (Verbosity.all.map Verbosity.name)
    refine ⟨_, ?_, refuses_invalid (by decide) s!"must be one of: {names}"⟩
    cases value with
    | text name =>
      simp only [checkVerbosity, ofName?_eq_none h]
      rfl
    | _ => rfl

theorem checks_logFile :
    Checks "log_file" checkLogFile fun path => (path.map Value.text).getD .null where
  accepted {value} h := by
    cases value with
    | null => exact ⟨none, rfl, rfl⟩
    | text path => exact ⟨some path, rfl, rfl⟩
    | _ => simp [accepts] at h
  refused {value} h := by
    refine ⟨_, ?_, refuses_invalid (by decide) "must be a file path"⟩
    cases value with
    | null | text path => simp [accepts] at h
    | _ => rfl

def misfits (values : Table Value) (key : String) : Bool :=
  (values.lookup key).any fun value => !accepts key value

/--
What becomes of the values of some settings: the first setting with a value that it cannot have is refused, and
if there is none, then the result is as it should be.
-/
def Settles {α : Type} (values : Table Value) (names : List String) (Good : α → Prop)
    (outcome : Except Failure α) : Prop :=
  match names.find? (misfits values) with
  | some key => ∃ value failure,
      values.lookup key = some value ∧ outcome = .error failure ∧ Refuses key value none failure
  | none => ∃ result, outcome = .ok result ∧ Good result

section

variable {α β : Type} {values : Table Value} {key : String} {check : Value → Except Failure α}
  {shown : α → Value}

theorem valueOr_of_misfits (hcheck : Checks key check shown) (default : α)
    (h : misfits values key = true) :
    ∃ value failure, values.lookup key = some value ∧
      valueOr values key default check = .error failure ∧ Refuses key value none failure := by
  unfold misfits at h
  rw [Option.any_eq_true] at h
  obtain ⟨value, hvalue, hnot⟩ := h
  obtain ⟨failure, hfailure, hrefuses⟩ := hcheck.refused (by simpa using hnot)
  exact ⟨value, failure, hvalue, by simp [valueOr, hvalue, hfailure], hrefuses⟩

theorem valueOr_of_not_misfits (hcheck : Checks key check shown) (default : α)
    (h : misfits values key = false) :
    ∃ result, valueOr values key default check = .ok result ∧
      shown result = (values.lookup key).getD (shown default) := by
  unfold misfits at h
  cases hvalue : values.lookup key with
  | none => exact ⟨default, by simp [valueOr, hvalue], rfl⟩
  | some value =>
    have hfits : accepts key value = true := by simpa [hvalue] using h
    obtain ⟨result, hresult, hshown⟩ := hcheck.accepted hfits
    exact ⟨result, by simp [valueOr, hvalue, hresult], hshown⟩

theorem settles_bind {names : List String} {Good : β → Prop} {next : α → Except Failure β}
    {default : α} (hcheck : Checks key check shown)
    (hnext : ∀ result, shown result = (values.lookup key).getD (shown default) →
      Settles values names Good (next result)) :
    Settles values (key :: names) Good (valueOr values key default check >>= next) := by
  unfold Settles
  rw [List.find?_cons]
  cases hmisfits : misfits values key with
  | true =>
    obtain ⟨value, failure, hvalue, hfailure, hrefuses⟩ := valueOr_of_misfits hcheck default hmisfits
    rw [hfailure]
    exact ⟨value, failure, hvalue, rfl, hrefuses⟩
  | false =>
    obtain ⟨result, hresult, hshown⟩ := valueOr_of_not_misfits hcheck default hmisfits
    rw [hresult]
    exact hnext result hshown

theorem settles_pure {Good : α → Prop} {result : α} (h : Good result) :
    Settles values [] Good (pure result) :=
  ⟨result, rfl, h⟩

end

def Shows (settings : Settings) (value? : String → Option Value) : Prop :=
  ∀ key ∈ keys, settings.toValues.lookup key = (value? key).or (({} : Settings).toValues.lookup key)

theorem settles_ofValues (values : Table Value) :
    Settles values keys (fun settings => settings.Shows (values.lookup ·)) (ofValues values) := by
  apply settles_bind checks_patterns
  intro patterns hpatterns
  apply settles_bind checks_encoding
  intro encoding hencoding
  apply settles_bind checks_follow
  intro follow hfollow
  apply settles_bind checks_verbosity
  intro verbosity hverbosity
  apply settles_bind checks_logFile
  intro logFile hlogFile
  apply settles_pure
  intro key hkey
  simp only [keys, List.mem_cons, List.not_mem_nil, or_false] at hkey
  rcases hkey with rfl | rfl | rfl | rfl | rfl
  . simp [toValues, hpatterns]
  . simp [toValues, Table.lookup_cons, hencoding]
  . simp [toValues, Table.lookup_cons, hfollow]
  . simp [toValues, Table.lookup_cons, hverbosity]
  . simp [toValues, Table.lookup_cons, hlogFile]

end Settings

end ParadigmScan
