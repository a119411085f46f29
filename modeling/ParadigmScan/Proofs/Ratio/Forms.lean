import ParadigmScan.Report

/-!
This module contains that all forms of a report fail alike, since all of them show the ratio.
-/

namespace ParadigmScan

namespace Report

def failure {α : Type} : Except RatioError α → Option RatioError
  | .ok _ => none
  | .error error => some error

theorem failure_eq_none_iff {α : Type} {outcome : Except RatioError α} :
    failure outcome = none ↔ ∃ value, outcome = .ok value := by
  cases outcome <;> simp [failure]

theorem failure_map {α β : Type} (f : α → β) (outcome : Except RatioError α) :
    failure (f <$> outcome) = failure outcome := by
  cases outcome <;> rfl

theorem failure_toJson (r : Report) : failure r.toJson = failure r.ratio := by
  unfold toJson
  cases r.ratio <;> rfl

theorem failure_write (r : Report) (format : Format) : failure (format.write r) = failure r.ratio := by
  cases format with
  | text =>
    show failure r.toText = failure r.ratio
    unfold toText
    cases r.ratio <;> rfl
  | json layout =>
    show failure (r.toJsonText layout) = failure r.ratio
    unfold toJsonText
    rw [failure_map]
    exact failure_toJson r

end Report

theorem exists_write_of_ratio {report : Report} {ratio : Option Ratio} (h : report.ratio = .ok ratio)
    (form : Format) : ∃ text, form.write report = .ok text := by
  rw [← Report.failure_eq_none_iff]
  rw [Report.failure_write]
  rw [h]
  rfl

theorem exists_toJsonText {form : Format} {report : Report} {text : String}
    (h : form.write report = .ok text) (layout : Json.Layout) :
    ∃ json, report.toJsonText layout = .ok json := by
  show ∃ json, (Format.json layout).write report = .ok json
  rw [← Report.failure_eq_none_iff]
  rw [Report.failure_write]
  rw [← Report.failure_write report form]
  rw [h]
  rfl

end ParadigmScan
