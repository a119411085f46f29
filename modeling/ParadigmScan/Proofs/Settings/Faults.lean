import ParadigmScan.Proofs.Encoding.Utf8
import ParadigmScan.Proofs.Settings.Priority

/-!
This module contains how loading the settings can end without settings. Nearly everything is reported as a problem with
the configuration. What is not comes from a file that cannot be looked up, decoded or read to its end, from the name of
an encoding, or from a value that cannot be shown.
-/

namespace ParadigmScan

namespace Settings

inductive FileFault (host : Host) (path : Path) : Fault → Prop where
  | withheld {error : FileError} : host.Withholds path error →
      FileFault host path (.file error path.text)
  | notUtf8 {bytes : List UInt8} {position length : Nat} {error : Encoding.Utf8Error} :
      host.isFile path = .ok true → host.readBytes path = .ok bytes →
      (¬ ∃ text, Encoding.IsUtf8 text bytes) →
      Encoding.utf8Fault? 0 bytes = some (position, length, error) →
      FileFault host path (.notUtf8 position ((bytes.drop position).take length) error)
  | tooDeep {bytes : List UInt8} {text : List CodePoint} :
      host.isFile path = .ok true → host.readBytes path = .ok bytes → Encoding.IsUtf8 text bytes →
      host.platform.isTooDeep (Encoding.toChars text) = true → FileFault host path .tooDeep
  | longInteger {bytes : List UInt8} {text : List CodePoint} {digits : Nat} :
      host.isFile path = .ok true → host.readBytes path = .ok bytes → Encoding.IsUtf8 text bytes →
      host.platform.isTooDeep (Encoding.toChars text) = false →
      Toml.HoldsInteger digits (Toml.unifyLines (Encoding.toChars text)) →
      Toml.parse (Encoding.toChars text) = .error (.longInteger digits) →
      FileFault host path (.longInteger digits)

variable {host : Host} {path : Path} {fault : Fault}

theorem isFile_of_withholds {error : FileError} (h : host.Withholds path error) :
    host.isFile path = .error error :=
  Host.check_eq_error_iff.mpr h

theorem fileFault_of_readFile (hfile : host.isFile path = .ok true)
    (h : readFile host path = .error (.fault fault)) : FileFault host path fault := by
  unfold readFile at h
  split at h
  . cases h
  . next bytes hbytes =>
    split at h
    . next position length error hfault =>
      cases h
      apply FileFault.notUtf8 hfile hbytes _ hfault
      rw [← Encoding.utf8Fault?_eq_none_iff]
      simp [hfault]
    . next hutf8 =>
      obtain ⟨text, htext⟩ := Encoding.utf8Fault?_eq_none_iff.mp hutf8
      rw [htext.decodeUtf8_eq] at h
      dsimp only at h
      split at h
      . next hdepth =>
        cases h
        exact FileFault.tooDeep hfile hbytes htext hdepth
      . next hdepth =>
        split at h
        . cases h
        . cases h
        . next digits hparse =>
          cases h
          exact FileFault.longInteger hfile hbytes htext (by simpa using hdepth)
            (Toml.holdsInteger_of_parse hparse) hparse

theorem readFile_of_fileFault (hfile : host.isFile path = .ok true)
    (h : FileFault host path fault) : readFile host path = .error (.fault fault) := by
  cases h with
  | withheld hwithholds =>
    rw [isFile_of_withholds hwithholds] at hfile
    cases hfile
  | notUtf8 _ hbytes _ hfault =>
    simp only [readFile, hbytes, hfault]
    rfl
  | tooDeep _ hbytes htext hdepth =>
    have hutf8 := Encoding.utf8Fault?_eq_none_iff.mpr ⟨_, htext⟩
    simp only [readFile, hbytes, hutf8, htext.decodeUtf8_eq, hdepth]
    rfl
  | longInteger _ hbytes htext hdepth _ hparse =>
    have hutf8 := Encoding.utf8Fault?_eq_none_iff.mpr ⟨_, htext⟩
    simp only [readFile, hbytes, hutf8, htext.decodeUtf8_eq, hdepth, hparse]
    rfl

theorem isConfiguration_of_readFile {problem : Problem}
    (h : readFile host path = .error (.problem problem)) : problem.isConfiguration = true := by
  unfold readFile at h
  split at h
  . cases h
    rfl
  . split at h
    . cases h
    . dsimp only at h
      split at h
      . cases h
      . split at h
        . cases h
        . cases h
          rfl
        . cases h

variable {otherwise : Except Failure (List Layer)}

theorem fileOr_eq_fault_iff (hotherwise : otherwise ≠ .error (.fault fault)) :
    fileOr host path otherwise = .error (.fault fault) ↔ FileFault host path fault := by
  unfold fileOr Settings.isFile
  cases hfile : host.isFile path with
  | error error =>
    constructor
    . intro h
      cases h
      exact FileFault.withheld (Host.check_eq_error_iff.mp hfile)
    . intro h
      cases h with
      | withheld hwithholds =>
        rw [isFile_of_withholds hwithholds] at hfile
        cases hfile
        rfl
      | notUtf8 hfile' | tooDeep hfile' | longInteger hfile' => simp [hfile] at hfile'
  | ok found =>
    cases found with
    | false =>
      refine ⟨fun h => absurd h hotherwise, ?_⟩
      intro h
      cases h with
      | withheld hwithholds =>
        rw [isFile_of_withholds hwithholds] at hfile
        cases hfile
      | notUtf8 hfile' | tooDeep hfile' | longInteger hfile' => simp [hfile] at hfile'
    | true =>
      change (readFile host path >>= fun values => pure _) = _ ↔ _
      rw [bind_eq_error_iff]
      constructor
      . rintro (h | ⟨values, -, h⟩)
        . exact fileFault_of_readFile hfile h
        . cases h
      . intro h
        exact .inl (readFile_of_fileFault hfile h)

theorem isConfiguration_of_fileOr {problem : Problem}
    (hotherwise : otherwise = .error (.problem problem) → problem.isConfiguration = true)
    (h : fileOr host path otherwise = .error (.problem problem)) : problem.isConfiguration = true := by
  unfold fileOr Settings.isFile at h
  cases hfile : host.isFile path with
  | error error =>
    rw [hfile] at h
    cases h
  | ok found =>
    rw [hfile] at h
    cases found with
    | false => exact hotherwise h
    | true =>
      change (readFile host path >>= fun values => pure _) = _ at h
      rcases bind_eq_error_iff.mp h with h | ⟨values, -, h⟩
      . exact isConfiguration_of_readFile h
      . cases h

theorem projectLayer_eq_fault_iff :
    projectLayer host = .error (.fault fault) ↔ FileFault host (projectPath host) fault := by
  rw [projectLayer_eq]
  apply fileOr_eq_fault_iff
  simp

theorem explicitLayer_eq_fault_iff {file : Option Path} :
    explicitLayer host file = .error (.fault fault) ↔
      ∃ path, file = some path ∧ FileFault host path fault := by
  cases file with
  | none => simp [explicitLayer, pure, Except.pure]
  | some path =>
    rw [explicitLayer_some]
    rw [fileOr_eq_fault_iff (by simp)]
    simp

namespace Sources

/--
The name of the encoding that counts holds the character that no name can hold, and nothing is reported before it.
-/
def NulInEncoding (sources : Sources) : Prop :=
  sources.firstUnknown? = none ∧ sources.firstInvalid? = some "encoding" ∧
    ∃ value source, sources.winner? "encoding" = some (value, source) ∧ value.holdsNul = true

/--
The value that is reported cannot be shown, and this is why: it is the value of the first key that is no setting, or
else of the first setting that cannot have it.
-/
def Unshowable (sources : Sources) (platform : Platform) (fault : Fault) : Prop :=
  ∃ key value source, sources.winner? key = some (value, source) ∧
    value.describeFault? platform = some fault ∧
    (sources.firstUnknown? = some key ∨
      sources.firstUnknown? = none ∧ sources.firstInvalid? = some key ∧
        ¬ (key = "encoding" ∧ value.holdsNul = true))

variable {file : Option Path} {sources : Sources} (hfound : sources.Found host file)

include hfound

theorem load_cases :
    (∃ settings, load host file sources.overrides = .ok settings) ∨
    (∃ problem, load host file sources.overrides = .error (.problem problem) ∧
      problem.isConfiguration = true) ∨
    (load host file sources.overrides = .error (.fault .nulInName) ∧ sources.NulInEncoding) ∨
    ∃ fault, load host file sources.overrides = .error (.fault fault) ∧
      sources.Unshowable host.platform fault := by
  cases hknown : sources.firstUnknown? with
  | some key =>
    obtain ⟨value, source, failure, hwinner, hload, htells⟩ := load_of_unknown hfound hknown
    rcases htells with ⟨-, rfl⟩ | ⟨fault, hfault, rfl⟩
    . exact .inr (.inl ⟨_, hload, rfl⟩)
    . exact .inr (.inr (.inr ⟨fault, hload, key, value, source, hwinner, hfault, .inl hknown⟩))
  | none =>
    cases hkey : sources.firstInvalid? with
    | none =>
      obtain ⟨settings, hload, -⟩ := load_of_valid hfound hknown hkey
      exact .inl ⟨settings, hload⟩
    | some key =>
      obtain ⟨value, source, failure, hwinner, hload, htells⟩ := load_of_invalid hfound hknown hkey
      unfold TellsInvalid at htells
      split at htells
      . next hnul =>
        obtain ⟨rfl, hnul⟩ := hnul
        subst htells
        exact .inr (.inr (.inl ⟨hload, hknown, hkey, value, source, hwinner, hnul⟩))
      . next hnul =>
        obtain ⟨reason, ⟨-, rfl⟩ | ⟨fault, hfault, rfl⟩⟩ := htells
        . exact .inr (.inl ⟨_, hload, rfl⟩)
        . exact .inr (.inr (.inr
            ⟨fault, hload, key, value, source, hwinner, hfault, .inr ⟨hknown, hkey, hnul⟩⟩))

theorem load_of_nulInEncoding (h : sources.NulInEncoding) :
    load host file sources.overrides = .error (.fault .nulInName) := by
  obtain ⟨hknown, hkey, value, source, hwinner, hnul⟩ := h
  obtain ⟨value', source', failure, hwinner', hload, htells⟩ := load_of_invalid hfound hknown hkey
  rw [hwinner] at hwinner'
  cases hwinner'
  unfold TellsInvalid at htells
  rw [if_pos ⟨rfl, hnul⟩] at htells
  rw [hload]
  rw [htells]

theorem load_of_unshowable (h : sources.Unshowable host.platform fault) :
    load host file sources.overrides = .error (.fault fault) := by
  have htold : ∀ {key value reason source failure}, value.describeFault? host.platform = some fault →
      Tells host.platform key value reason source failure → failure = .fault fault := by
    rintro key value reason source failure hfault (⟨hnone, -⟩ | ⟨other, hother, rfl⟩)
    . rw [hfault] at hnone
      cases hnone
    . rw [hfault] at hother
      cases hother
      rfl
  obtain ⟨key, value, source, hwinner, hfault, hknown | ⟨hknown, hkey, hnul⟩⟩ := h
  . obtain ⟨value', source', failure, hwinner', hload, htells⟩ := load_of_unknown hfound hknown
    rw [hwinner] at hwinner'
    cases hwinner'
    rw [hload]
    rw [htold hfault htells]
  . obtain ⟨value', source', failure, hwinner', hload, htells⟩ := load_of_invalid hfound hknown hkey
    rw [hwinner] at hwinner'
    cases hwinner'
    unfold TellsInvalid at htells
    rw [if_neg hnul] at htells
    obtain ⟨reason, htells⟩ := htells
    rw [hload]
    rw [htold hfault htells]

theorem load_eq_fault_iff :
    load host file sources.overrides = .error (.fault fault) ↔
      (fault = .nulInName ∧ sources.NulInEncoding) ∨ sources.Unshowable host.platform fault := by
  constructor
  . intro h
    rcases load_cases hfound with ⟨settings, hload⟩ | ⟨problem, hload, -⟩ | ⟨hload, hnul⟩ |
      ⟨other, hload, hother⟩
    . rw [hload] at h
      cases h
    . rw [hload] at h
      cases h
    . rw [hload] at h
      cases h
      exact .inl ⟨rfl, hnul⟩
    . rw [hload] at h
      cases h
      exact .inr hother
  . rintro (⟨rfl, hnul⟩ | hunshowable)
    . exact load_of_nulInEncoding hfound hnul
    . exact load_of_unshowable hfound hunshowable

theorem isConfiguration_of_load {problem : Problem}
    (h : load host file sources.overrides = .error (.problem problem)) :
    problem.isConfiguration = true := by
  rcases load_cases hfound with ⟨settings, hload⟩ | ⟨problem, hload, hproblem⟩ | ⟨hload, -⟩ |
    ⟨other, hload, -⟩
  . rw [hload] at h
    cases h
  . rw [hload] at h
    cases h
    exact hproblem
  . rw [hload] at h
    cases h
  . rw [hload] at h
    cases h

end Sources

theorem load_eq_error_iff {file : Option Path} {overrides : Table Value} {failure : Failure} :
    load host file overrides = .error failure ↔
      projectLayer host = .error failure ∨
      ∃ project : Option Layer, projectLayer host = .ok project.toList ∧
        (explicitLayer host file = .error failure ∨
        ∃ explicit : Option Layer, explicitLayer host file = .ok explicit.toList ∧
          load host file overrides = .error failure) := by
  constructor
  . intro h
    rcases bind_eq_error_iff.mp h with hproject | ⟨layers, hproject, hrest⟩
    . exact .inl hproject
    . obtain ⟨project, rfl, -⟩ := exists_of_projectLayer hproject
      refine .inr ⟨project, hproject, ?_⟩
      rcases bind_eq_error_iff.mp hrest with hexplicit | ⟨layers, hexplicit, -⟩
      . exact .inl hexplicit
      . obtain ⟨explicit, rfl, -⟩ := exists_of_explicitLayer hexplicit
        exact .inr ⟨explicit, hexplicit, h⟩
  . rintro (hproject | ⟨project, hproject, hexplicit | ⟨explicit, -, h⟩⟩)
    . exact bind_eq_error_iff.mpr (.inl hproject)
    . apply bind_eq_error_iff.mpr
      exact .inr ⟨_, hproject, bind_eq_error_iff.mpr (.inl hexplicit)⟩
    . exact h

theorem isConfiguration_of_projectLayer {problem : Problem}
    (h : projectLayer host = .error (.problem problem)) : problem.isConfiguration = true := by
  rw [projectLayer_eq] at h
  apply isConfiguration_of_fileOr _ h
  intro hempty
  cases hempty

theorem isConfiguration_of_explicitLayer {file : Option Path} {problem : Problem}
    (h : explicitLayer host file = .error (.problem problem)) : problem.isConfiguration = true := by
  cases file with
  | none => cases h
  | some path =>
    rw [explicitLayer_some] at h
    apply isConfiguration_of_fileOr _ h
    intro hmissing
    cases hmissing
    rfl

theorem isConfiguration_of_load {file : Option Path} {overrides : Table Value}
    (hoverrides : (Table.keys overrides).Nodup) {problem : Problem}
    (h : load host file overrides = .error (.problem problem)) : problem.isConfiguration = true := by
  rcases load_eq_error_iff.mp h with hproject | ⟨project, hproject, hexplicit | ⟨explicit, hexplicit, -⟩⟩
  . exact isConfiguration_of_projectLayer hproject
  . exact isConfiguration_of_explicitLayer hexplicit
  . have hfound : Sources.Found host file { project, explicit, overrides } :=
      ⟨hproject, hexplicit, hoverrides⟩
    exact Sources.isConfiguration_of_load hfound h

theorem load_eq_fault_iff {file : Option Path} {overrides : Table Value}
    (hoverrides : (Table.keys overrides).Nodup) :
    load host file overrides = .error (.fault fault) ↔
      FileFault host (projectPath host) fault ∨
      ∃ project : Option Layer, projectLayer host = .ok project.toList ∧
        ((∃ path, file = some path ∧ FileFault host path fault) ∨
        ∃ explicit : Option Layer, explicitLayer host file = .ok explicit.toList ∧
          ((fault = .nulInName ∧ Sources.NulInEncoding { project, explicit, overrides }) ∨
            Sources.Unshowable { project, explicit, overrides } host.platform fault)) := by
  rw [load_eq_error_iff]
  rw [projectLayer_eq_fault_iff]
  rw [explicitLayer_eq_fault_iff]
  -- only the last alternative is left, and there all sources are known
  apply or_congr_right
  apply exists_congr
  intro project
  apply and_congr_right
  intro hproject
  apply or_congr_right
  apply exists_congr
  intro explicit
  apply and_congr_right
  intro hexplicit
  have hfound : Sources.Found host file { project, explicit, overrides } :=
    ⟨hproject, hexplicit, hoverrides⟩
  exact @Sources.load_eq_fault_iff _ _ _ { project, explicit, overrides } hfound

/--
Loading the settings gives settings or ends with a problem with the configuration, except for a settings file that
cannot be looked up, is not UTF-8, is nested too deeply or holds an integer with too many digits, for an encoding with
the character that no name can hold, and for a value that would be reported but cannot be shown.
-/
theorem load_faults_iff (host : Host) (file : Option Path) (overrides : Table Value)
    (hoverrides : (Table.keys overrides).Nodup) :
    (∀ problem, load host file overrides = .error (.problem problem) →
      problem.isConfiguration = true) ∧
    ∀ fault, load host file overrides = .error (.fault fault) ↔
      FileFault host (projectPath host) fault ∨
      ∃ project : Option Layer, projectLayer host = .ok project.toList ∧
        ((∃ path, file = some path ∧ FileFault host path fault) ∨
        ∃ explicit : Option Layer, explicitLayer host file = .ok explicit.toList ∧
          ((fault = .nulInName ∧ Sources.NulInEncoding { project, explicit, overrides }) ∨
            Sources.Unshowable { project, explicit, overrides } host.platform fault)) :=
  ⟨fun _ h => isConfiguration_of_load hoverrides h, fun _ => load_eq_fault_iff hoverrides⟩

theorem utf8Fault?_ff :
    Encoding.utf8Fault? 0 [255] = some (0, 1, .invalidStart) ∧
      ¬ ∃ text, Encoding.IsUtf8 text [255] := by
  have hfault : Encoding.utf8Fault? 0 [255] = some (0, 1, .invalidStart) := by cbv
  refine ⟨hfault, ?_⟩
  rw [← Encoding.utf8Fault?_eq_none_iff]
  simp [hfault]

theorem load_faults_iff_settingsHost :
    (Table.keys [("quiet", Value.boolean true)]).Nodup ∧
      load (settingsHost [] [255]) (some { anchor := .here, names := ["c"] })
        [("quiet", .boolean true)] = .error (.fault (.notUtf8 0 [255] .invalidStart)) := by
  have hproject : projectLayer (settingsHost [] [255]) =
      .ok [{ source := "/paradigm-meter.toml", values := [] }] :=
    projectLayer_settingsHost _ (by cbv) (by cbv)
  obtain ⟨hfault, hnot⟩ := utf8Fault?_ff
  have hnodup : (Table.keys [("quiet", Value.boolean true)]).Nodup := by decide
  obtain ⟨-, hfaults⟩ := load_faults_iff (settingsHost [] [255])
    (some { anchor := .here, names := ["c"] }) [("quiet", .boolean true)] hnodup
  refine ⟨hnodup, (hfaults _).mpr (.inr ⟨some _, hproject, .inl ⟨_, rfl, ?_⟩⟩)⟩
  exact FileFault.notUtf8 (by cbv) (by cbv) hnot hfault

/--
A settings file that is not UTF-8 is not reported as a problem with the configuration.
-/
theorem load_not_utf8 :
    load (settingsHost [255] []) none [] = .error (.fault (.notUtf8 0 [255] .invalidStart)) := by
  obtain ⟨hfault, hnot⟩ := utf8Fault?_ff
  apply load_eq_error_iff.mpr
  apply Or.inl
  apply projectLayer_eq_fault_iff.mpr
  have hresolve := resolve_settingsHost [255] []
  have hfile : (settingsHost [255] []).isFile (projectPath (settingsHost [255] [])) = .ok true :=
    Host.check_eq_ok_true_iff.mpr ⟨hasNul_settingsHost [255] [], _, hresolve, rfl⟩
  exact FileFault.notUtf8 hfile (Host.readBytes_of_resolve rfl hresolve) hnot hfault

end Settings

end ParadigmScan
