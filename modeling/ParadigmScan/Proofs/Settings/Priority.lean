import Mathlib
import ParadigmScan.Proofs.Failure
import ParadigmScan.Proofs.FileTree.Checks
import ParadigmScan.Proofs.Settings.Values
import ParadigmScan.Proofs.Toml.Documents
import ParadigmScan.Settings.Load

/-!
This module contains how the sources of settings are put together: for every setting the value of the highest source
that supplies it counts, and everything that is said about the value is said about this source.
-/

namespace ParadigmScan

namespace Settings

namespace Layer

def supply? (layer : Layer) (key : String) : Option (Value × String) :=
  (layer.values.lookup key).map (·, layer.source)

def origins (layer : Layer) : Table String :=
  layer.values.map fun (key, _) => (key, layer.source)

theorem keys_origins (layer : Layer) : Table.keys layer.origins = Table.keys layer.values := by
  simp [origins, Table.keys]

theorem lookup_origins (layer : Layer) (key : String) :
    layer.origins.lookup key = (layer.supply? key).map (·.2) := by
  obtain ⟨source, values⟩ := layer
  unfold origins supply?
  induction values with
  | nil => rfl
  | cons entry values ih =>
    rw [List.map_cons]
    rw [Table.lookup_cons]
    rw [Table.lookup_cons]
    by_cases h : key = entry.1
    . simp [h]
    . simpa [h] using ih

end Layer

def topmost (layers : List Layer) (key : String) : Option (Value × String) :=
  layers.reverse.findSome? (·.supply? key)

section

variable {layers : List Layer} (hnodup : ∀ layer ∈ layers, (Table.keys layer.values).Nodup)

include hnodup

theorem lookup_values_mergeLayers (key : String) :
    (mergeLayers layers).1.lookup key = (topmost layers key).map (·.1) := by
  have htables : ∀ table ∈ layers.map Layer.values, (Table.keys table).Nodup := by
    simpa using hnodup
  have hmerged := Table.lookup_foldl_merge _ htables [] key
  rw [List.foldl_map] at hmerged
  unfold mergeLayers topmost
  rw [hmerged]
  rw [List.map_findSome?]
  rw [← List.map_reverse]
  rw [List.findSome?_map]
  simp [Function.comp_def, Layer.supply?]

theorem lookup_origins_mergeLayers (key : String) :
    (mergeLayers layers).2.lookup key = (topmost layers key).map (·.2) := by
  have htables : ∀ table ∈ layers.map Layer.origins, (Table.keys table).Nodup := by
    simpa [Layer.keys_origins] using hnodup
  have hmerged := Table.lookup_foldl_merge _ htables [] key
  rw [List.foldl_map] at hmerged
  unfold mergeLayers topmost
  change (layers.foldl (fun table layer => Table.merge table layer.origins) []).lookup key = _
  rw [hmerged]
  rw [List.map_findSome?]
  rw [← List.map_reverse]
  rw [List.findSome?_map]
  simp [Function.comp_def, Layer.lookup_origins]

end

theorem find?_keys_mergeLayers (layers : List Layer) (p : String → Bool) :
    (Table.keys (mergeLayers layers).1).find? p =
      (layers.flatMap (Table.keys ·.values)).find? p := by
  have hmerged := Table.find?_keys_foldl_merge (layers.map Layer.values) [] p
  rw [List.foldl_map] at hmerged
  unfold mergeLayers
  rw [hmerged]
  simp [List.flatMap_map]

/--
The failure is the one about a value that is refused for a reason: a problem that shows the value and names its source, or
else the fault that keeps the value from being shown.
-/
def Tells (platform : Platform) (key : String) (value : Value) (reason source : String)
    (failure : Failure) : Prop :=
  (value.describeFault? platform = none ∧
    failure = .problem (.invalidSetting key value reason (some source))) ∨
  ∃ fault, value.describeFault? platform = some fault ∧ failure = .fault fault

theorem tells_worded (platform : Platform) (key : String) (value : Value) (reason source : String) :
    Tells platform key value reason source
      (Failure.worded platform (.problem (.invalidSetting key value reason (some source)))) := by
  unfold Tells
  simp only [Failure.worded]
  cases value.describeFault? platform with
  | none => exact .inl ⟨rfl, rfl⟩
  | some fault => exact .inr ⟨fault, rfl, rfl⟩

/--
The failure is the one about the value that counts for a setting and that the setting cannot have. That a name cannot
even be looked up is told before anything else.
-/
def TellsInvalid (platform : Platform) (key : String) (value : Value) (source : String)
    (failure : Failure) : Prop :=
  if key = "encoding" ∧ value.holdsNul = true then failure = .fault .nulInName
  else ∃ reason, Tells platform key value reason source failure

theorem tellsInvalid_of_refuses {platform : Platform} {origins : Table String} {key source : String}
    {value : Value} {failure : Failure} (hsource : origins.lookup key = some source)
    (h : Refuses key value none failure) :
    TellsInvalid platform key value source ((withSource origins failure).worded platform) := by
  unfold Refuses at h
  unfold TellsInvalid
  by_cases hnul : key = "encoding" ∧ value.holdsNul = true
  . rw [if_pos hnul] at h ⊢
    rw [h]
    rfl
  . rw [if_neg hnul] at h ⊢
    obtain ⟨reason, rfl⟩ := h
    refine ⟨reason, ?_⟩
    simp only [withSource, hsource]
    exact tells_worded platform key value reason source

def isUnknown (key : String) : Bool := !keys.contains key

section

variable {platform : Platform} {layers : List Layer}
  (hnodup : ∀ layer ∈ layers, (Table.keys layer.values).Nodup)

include hnodup

theorem ofLayers_of_unknown {key : String}
    (hkey : (layers.flatMap (Table.keys ·.values)).find? isUnknown = some key) :
    ∃ value source failure, topmost layers key = some (value, source) ∧
      ofLayers platform layers = .error failure ∧
      Tells platform key value "unknown configuration key" source failure := by
  rw [← find?_keys_mergeLayers] at hkey
  have hmem := List.mem_of_find?_eq_some hkey
  -- the key is in the merged table, so some layer supplies it
  obtain ⟨value, hvalue⟩ : ∃ value, (mergeLayers layers).1.lookup key = some value := by
    rw [← Option.ne_none_iff_exists']
    intro hnone
    exact Table.lookup_eq_none_iff.mp hnone hmem
  have hfind : (mergeLayers layers).1.find? (isUnknown ·.1) = some (key, value) :=
    Table.find?_eq_some_iff.mpr ⟨hkey, hvalue⟩
  rw [lookup_values_mergeLayers hnodup] at hvalue
  obtain ⟨⟨value, source⟩, htop, rfl⟩ := Option.map_eq_some_iff.mp hvalue
  have hsource : (mergeLayers layers).2.lookup key = some source := by
    rw [lookup_origins_mergeLayers hnodup]
    rw [htop]
    rfl
  refine ⟨value, source, _, htop, ?_, tells_worded _ _ _ _ _⟩
  unfold isUnknown at hfind
  simp only [ofLayers, hfind, invalid, Except.mapError, withSource, hsource]

omit hnodup in
theorem ofLayers_of_known
    (hknown : (layers.flatMap (Table.keys ·.values)).find? isUnknown = none) :
    ofLayers platform layers =
      (ofValues (mergeLayers layers).1).mapError fun failure =>
        (withSource (mergeLayers layers).2 failure).worded platform := by
  rw [← find?_keys_mergeLayers] at hknown
  have hfind := Table.find?_eq_none_iff.mpr hknown
  unfold isUnknown at hfind
  simp only [ofLayers, hfind]

theorem misfits_mergeLayers :
    misfits (mergeLayers layers).1 = fun key => (topmost layers key).any (!accepts key ·.1) := by
  funext key
  unfold misfits
  rw [lookup_values_mergeLayers hnodup]
  simp [Option.any_map]

theorem ofLayers_of_invalid {key : String}
    (hknown : (layers.flatMap (Table.keys ·.values)).find? isUnknown = none)
    (hkey : (keys.find? fun key => (topmost layers key).any (!accepts key ·.1)) = some key) :
    ∃ value source failure, topmost layers key = some (value, source) ∧
      ofLayers platform layers = .error failure ∧ TellsInvalid platform key value source failure := by
  rw [← misfits_mergeLayers hnodup] at hkey
  have hsettles := settles_ofValues (mergeLayers layers).1
  simp only [Settles, hkey] at hsettles
  obtain ⟨value, failure, hvalue, herror, hrefuses⟩ := hsettles
  rw [lookup_values_mergeLayers hnodup] at hvalue
  obtain ⟨⟨value, source⟩, htop, rfl⟩ := Option.map_eq_some_iff.mp hvalue
  have hsource : (mergeLayers layers).2.lookup key = some source := by
    rw [lookup_origins_mergeLayers hnodup]
    rw [htop]
    rfl
  refine ⟨value, source, _, htop, ?_, tellsInvalid_of_refuses hsource hrefuses⟩
  rw [ofLayers_of_known hknown]
  rw [herror]
  rfl

theorem ofLayers_of_valid
    (hknown : (layers.flatMap (Table.keys ·.values)).find? isUnknown = none)
    (hvalid : (keys.find? fun key => (topmost layers key).any (!accepts key ·.1)) = none) :
    ∃ settings, ofLayers platform layers = .ok settings ∧
      settings.Shows fun key => (topmost layers key).map (·.1) := by
  rw [← misfits_mergeLayers hnodup] at hvalid
  have hsettles := settles_ofValues (mergeLayers layers).1
  simp only [Settles, hvalid] at hsettles
  obtain ⟨settings, hok, hshows⟩ := hsettles
  refine ⟨settings, ?_, ?_⟩
  . rw [ofLayers_of_known hknown]
    rw [hok]
    rfl
  . simpa only [lookup_values_mergeLayers hnodup] using hshows

end

/--
The value that is given directly for a key. Being quiet counts before being verbose, and both count before
a verbosity. The switches themselves are no settings.
-/
def given? (overrides : Table Value) (key : String) : Option Value :=
  if key = "verbose" ∨ key = "quiet" then none
  else if key = "verbosity" ∧ (overrides.lookup "quiet").any Value.isTrue then some (.text "quiet")
  else if key = "verbosity" ∧ (overrides.lookup "verbose").any Value.isTrue then some (.text "verbose")
  else (overrides.lookup key).filter isGiven

theorem lookup_applySwitch (values : Table Value) (verbosity : Verbosity) (key : String)
    (hname : verbosity.name ≠ "verbosity") :
    (applySwitch values verbosity).lookup key =
      if key = verbosity.name then none
      else if key = "verbosity" ∧ (values.lookup verbosity.name).any Value.isTrue then
        some (.text verbosity.name)
      else values.lookup key := by
  have hon : ((values.lookup verbosity.name).map Value.isTrue).getD false =
      (values.lookup verbosity.name).any Value.isTrue := by
    cases values.lookup verbosity.name <;> rfl
  unfold applySwitch
  rw [hon]
  cases (values.lookup verbosity.name).any Value.isTrue with
  | false => simp [Table.lookup_erase]
  | true =>
    simp only [↓reduceIte, Table.lookup_set, Table.lookup_erase, and_true]
    by_cases hkey : key = "verbosity"
    . subst hkey
      simp [hname.symm]
    . simp [hkey]

theorem nodup_applySwitch {values : Table Value} (h : (Table.keys values).Nodup)
    (verbosity : Verbosity) : (Table.keys (applySwitch values verbosity)).Nodup := by
  simp only [applySwitch]
  split
  . exact Table.nodup_set (Table.nodup_erase h _) _ _
  . exact Table.nodup_erase h _

theorem find?_keys_applySwitch (values : Table Value) (verbosity : Verbosity)
    {p : String → Bool} (hverbosity : p "verbosity" = false) (hname : p verbosity.name = false) :
    (Table.keys (applySwitch values verbosity)).find? p = (Table.keys values).find? p := by
  have herase : (Table.keys (values.erase verbosity.name)).find? p = (Table.keys values).find? p := by
    rw [Table.keys_erase]
    rw [List.find?_filter]
    congr 1
    funext key
    by_cases hkey : key = verbosity.name
    . subst hkey
      simp [hname]
    . simp [hkey]
  simp only [applySwitch]
  split
  . have hset := Table.find?_keys_set (values.erase verbosity.name) "verbosity"
      (.text verbosity.name) p []
    rw [List.append_nil] at hset
    rw [hset]
    rw [List.find?_append]
    rw [herase]
    simp [hverbosity]
  . exact herase

section

variable {overrides : Table Value} (hnodup : (Table.keys overrides).Nodup)

include hnodup

theorem nodup_overridesLayer : (Table.keys (overridesLayer overrides).values).Nodup := by
  have h := nodup_applySwitch (nodup_applySwitch hnodup .verbose) .quiet
  unfold overridesLayer
  rw [Table.keys_filter h isGiven]
  exact h.filter _

theorem lookup_overridesLayer (key : String) :
    (overridesLayer overrides).values.lookup key = given? overrides key := by
  have h := nodup_applySwitch (nodup_applySwitch hnodup .verbose) .quiet
  unfold overridesLayer
  rw [Table.lookup_filter h isGiven]
  rw [lookup_applySwitch _ _ _ (by decide)]
  rw [lookup_applySwitch _ _ _ (by decide)]
  rw [lookup_applySwitch _ _ _ (by decide)]
  unfold given?
  simp only [Verbosity.name]
  by_cases hverbose : key = "verbose"
  . simp [hverbose]
  . by_cases hquiet : key = "quiet"
    . simp [hquiet]
    . by_cases hverbosity : key = "verbosity"
      . by_cases hoff : (overrides.lookup "quiet").any Value.isTrue = true
        . simp [hverbosity, hoff, Option.filter, isGiven]
        . by_cases hon : (overrides.lookup "verbose").any Value.isTrue = true
          . simp [hverbosity, hoff, hon, Option.filter, isGiven]
          . simp [hverbosity, hoff, hon]
      . simp [hverbose, hquiet, hverbosity]

theorem find?_keys_overridesLayer {p : String → Bool} (hp : p "verbosity" = false) :
    (Table.keys (overridesLayer overrides).values).find? p =
      ((Table.keys overrides).filter fun key => (given? overrides key).isSome).find? p := by
  have h := nodup_applySwitch (nodup_applySwitch hnodup .verbose) .quiet
  have hgiven : ∀ key, ((applySwitch (applySwitch overrides .verbose) .quiet).lookup key).any isGiven =
      (given? overrides key).isSome := by
    intro key
    rw [← lookup_overridesLayer hnodup]
    unfold overridesLayer
    rw [Table.lookup_filter h isGiven]
    rw [Option.isSome_filter]
  unfold overridesLayer
  rw [Table.keys_filter h isGiven]
  rw [List.find?_filter]
  rw [List.find?_filter]
  simp only [hgiven]
  rw [find?_keys_applySwitch _ _ (by simp [hp]) (by simp [given?, Verbosity.name])]
  rw [find?_keys_applySwitch _ _ (by simp [hp]) (by simp [given?, Verbosity.name])]

end

/--
Where settings come from: the file in the working directory, the file that is named, and values that are given
directly.
-/
structure Sources where
  project : Option Layer
  explicit : Option Layer
  overrides : Table Value

namespace Sources

def winner? (sources : Sources) (key : String) : Option (Value × String) :=
  ((given? sources.overrides key).map (·, overridesSource)).or
    ((sources.explicit.bind (·.supply? key)).or (sources.project.bind (·.supply? key)))

def supplied (sources : Sources) : List String :=
  (sources.project.map (Table.keys ·.values)).getD [] ++
    (sources.explicit.map (Table.keys ·.values)).getD [] ++
    (Table.keys sources.overrides).filter fun key => (given? sources.overrides key).isSome

def firstUnknown? (sources : Sources) : Option String :=
  sources.supplied.find? (· ∉ keys)

def firstInvalid? (sources : Sources) : Option String :=
  keys.find? fun key => (sources.winner? key).any fun (value, _) => !accepts key value

def layers (sources : Sources) : List Layer :=
  sources.project.toList ++ sources.explicit.toList ++ [overridesLayer sources.overrides]

section

variable {sources : Sources} (hnodup : (Table.keys sources.overrides).Nodup)

include hnodup

theorem topmost_layers (key : String) : topmost sources.layers key = sources.winner? key := by
  obtain ⟨project, explicit, overrides⟩ := sources
  have hgiven : (overridesLayer overrides).supply? key =
      (given? overrides key).map (·, overridesSource) := by
    unfold Layer.supply?
    rw [lookup_overridesLayer hnodup]
    rfl
  unfold topmost layers winner?
  rw [List.reverse_append]
  rw [List.reverse_append]
  rw [List.findSome?_append]
  rw [List.findSome?_append]
  cases project <;> cases explicit <;> simp [hgiven]

theorem find?_keys_layers :
    (sources.layers.flatMap (Table.keys ·.values)).find? isUnknown = sources.firstUnknown? := by
  obtain ⟨project, explicit, overrides⟩ := sources
  have hunknown : isUnknown = fun key => decide (key ∉ keys) := by
    funext key
    simp [isUnknown]
  have hoverrides := find?_keys_overridesLayer hnodup (p := isUnknown) (by decide)
  unfold layers firstUnknown? supplied
  rw [List.flatMap_append]
  rw [List.flatMap_append]
  rw [List.find?_append]
  rw [List.find?_append]
  rw [List.find?_append]
  rw [List.find?_append]
  rw [List.flatMap_singleton]
  rw [hoverrides]
  rw [← hunknown]
  cases project <;> cases explicit <;> simp

end

end Sources

theorem nodup_of_readFile {host : Host} {path : Path} {values : Table Value}
    (h : readFile host path = .ok values) : (Table.keys values).Nodup := by
  unfold readFile at h
  split at h
  . cases h
  . split at h
    . cases h
    . dsimp only at h
      split at h
      . cases h
      . split at h
        . next hparse =>
          cases h
          exact Toml.nodup_of_parse hparse
        . cases h
        . cases h

def projectPath (host : Host) : Path := { anchor := .root, names := host.cwd ++ [projectFileName] }

def fileOr (host : Host) (path : Path) (otherwise : Except Failure (List Layer)) :
    Except Failure (List Layer) := do
  if ← Settings.isFile host path then
    return [{ source := path.text, values := ← readFile host path }]
  else
    otherwise

theorem projectLayer_eq (host : Host) :
    projectLayer host = fileOr host (projectPath host) (.ok []) := rfl

theorem explicitLayer_some (host : Host) (path : Path) :
    explicitLayer host (some path) =
      fileOr host path (.error (.problem (.configuration s!"Config file not found: {path.text}" []))) :=
  rfl

theorem fileOr_of_isFile {host : Host} {path : Path} {otherwise : Except Failure (List Layer)}
    (h : host.isFile path = .ok true) :
    fileOr host path otherwise =
      (readFile host path).map fun values => [{ source := path.text, values }] := by
  simp only [fileOr, Settings.isFile, h]
  cases readFile host path <;> rfl

theorem fileOr_eq_ok {host : Host} {path : Path} {otherwise : Except Failure (List Layer)}
    {layers : List Layer} (h : fileOr host path otherwise = .ok layers) :
    otherwise = .ok layers ∨
      ∃ values, readFile host path = .ok values ∧ layers = [{ source := path.text, values }] := by
  unfold fileOr at h
  obtain ⟨found, -, h⟩ := bind_eq_ok_iff.mp h
  split at h
  . obtain ⟨values, hread, h⟩ := bind_eq_ok_iff.mp h
    cases h
    exact .inr ⟨values, hread, rfl⟩
  . exact .inl h

theorem readFile_eq_ok {host : Host} {path : Path} {bytes : List UInt8} {values : Table Value}
    (hbytes : host.readBytes path = .ok bytes) (hutf8 : Encoding.utf8Fault? 0 bytes = none)
    (hdepth : host.platform.isTooDeep (Encoding.toChars (Encoding.decodeUtf8 bytes)) = false)
    (hparse : Toml.parse (Encoding.toChars (Encoding.decodeUtf8 bytes)) = .ok values) :
    readFile host path = .ok values := by
  simp only [readFile, hbytes, hutf8, hdepth, hparse]
  rfl

theorem exists_of_fileOr {host : Host} {path : Path} {otherwise : Except Failure (List Layer)}
    {layers : List Layer} (h : fileOr host path otherwise = .ok layers)
    (hotherwise : otherwise = .ok layers → layers = []) :
    ∃ layer? : Option Layer, layers = layer?.toList ∧
      ∀ layer ∈ layers, (Table.keys layer.values).Nodup := by
  rcases fileOr_eq_ok h with h | ⟨values, hread, rfl⟩
  . obtain rfl := hotherwise h
    exact ⟨none, rfl, by simp⟩
  . exact ⟨some _, rfl, by simpa using nodup_of_readFile hread⟩

theorem exists_of_projectLayer {host : Host} {layers : List Layer}
    (h : projectLayer host = .ok layers) :
    ∃ layer? : Option Layer, layers = layer?.toList ∧
      ∀ layer ∈ layers, (Table.keys layer.values).Nodup := by
  rw [projectLayer_eq] at h
  apply exists_of_fileOr h
  intro hempty
  cases hempty
  rfl

theorem exists_of_explicitLayer {host : Host} {file : Option Path} {layers : List Layer}
    (h : explicitLayer host file = .ok layers) :
    ∃ layer? : Option Layer, layers = layer?.toList ∧
      ∀ layer ∈ layers, (Table.keys layer.values).Nodup := by
  cases file with
  | none =>
    cases h
    exact ⟨none, rfl, by simp⟩
  | some path =>
    rw [explicitLayer_some] at h
    apply exists_of_fileOr h
    intro hmissing
    cases hmissing

theorem projectLayer_of_resolve {host : Host} {bytes : List UInt8} {values : Table Value}
    (hdenied : host.isDenied (projectPath host) = false)
    (hnul : Path.hasNul (projectPath host).text = false)
    (hresolve : host.resolve (projectPath host).text = .ok (.file bytes))
    (hutf8 : Encoding.utf8Fault? 0 bytes = none)
    (hdepth : host.platform.isTooDeep (Encoding.toChars (Encoding.decodeUtf8 bytes)) = false)
    (hparse : Toml.parse (Encoding.toChars (Encoding.decodeUtf8 bytes)) = .ok values) :
    projectLayer host = .ok [{ source := (projectPath host).text, values }] := by
  have hfile : host.isFile (projectPath host) = .ok true :=
    Host.check_eq_ok_true_iff.mpr ⟨hnul, _, hresolve, rfl⟩
  rw [projectLayer_eq]
  rw [fileOr_of_isFile hfile]
  rw [readFile_eq_ok (Host.readBytes_of_resolve hdenied hresolve) hutf8 hdepth hparse]
  rfl

namespace Sources

structure Found (host : Host) (file : Option Path) (sources : Sources) : Prop where
  project : projectLayer host = .ok sources.project.toList
  explicit : explicitLayer host file = .ok sources.explicit.toList
  overrides : (Table.keys sources.overrides).Nodup

variable {host : Host} {file : Option Path} {sources : Sources} (hfound : sources.Found host file)

include hfound

theorem load_eq : load host file sources.overrides = ofLayers host.platform sources.layers := by
  unfold load layers
  rw [hfound.project]
  rw [hfound.explicit]
  rfl

theorem nodup_layers : ∀ layer ∈ sources.layers, (Table.keys layer.values).Nodup := by
  intro layer hlayer
  simp only [layers, List.mem_append, List.mem_singleton] at hlayer
  rcases hlayer with (hlayer | hlayer) | rfl
  . obtain ⟨-, -, hnodup⟩ := exists_of_projectLayer hfound.project
    exact hnodup layer hlayer
  . obtain ⟨-, -, hnodup⟩ := exists_of_explicitLayer hfound.explicit
    exact hnodup layer hlayer
  . exact nodup_overridesLayer hfound.overrides

theorem load_of_unknown {key : String} (hkey : sources.firstUnknown? = some key) :
    ∃ value source failure, sources.winner? key = some (value, source) ∧
      load host file sources.overrides = .error failure ∧
      Tells host.platform key value "unknown configuration key" source failure := by
  rw [load_eq hfound]
  rw [← topmost_layers hfound.overrides]
  rw [← find?_keys_layers hfound.overrides] at hkey
  exact ofLayers_of_unknown (nodup_layers hfound) hkey

theorem load_of_invalid {key : String} (hknown : sources.firstUnknown? = none)
    (hkey : sources.firstInvalid? = some key) :
    ∃ value source failure, sources.winner? key = some (value, source) ∧
      load host file sources.overrides = .error failure ∧
      TellsInvalid host.platform key value source failure := by
  unfold firstInvalid? at hkey
  simp only [← topmost_layers hfound.overrides] at hkey ⊢
  rw [load_eq hfound]
  rw [← find?_keys_layers hfound.overrides] at hknown
  exact ofLayers_of_invalid (nodup_layers hfound) hknown hkey

theorem load_of_valid (hknown : sources.firstUnknown? = none)
    (hvalid : sources.firstInvalid? = none) :
    ∃ settings, load host file sources.overrides = .ok settings ∧
      settings.Shows fun key => (sources.winner? key).map (·.1) := by
  unfold firstInvalid? at hvalid
  simp only [← topmost_layers hfound.overrides] at hvalid ⊢
  rw [load_eq hfound]
  rw [← find?_keys_layers hfound.overrides] at hknown
  exact ofLayers_of_valid (nodup_layers hfound) hknown hvalid

end Sources

/--
Settings are taken from the highest source that supplies them, and problems name this source. The first key that is
no setting is reported, then the first setting with a value that it cannot have. A value that cannot be shown is not
reported, and the program ends for this reason. If there is neither, then every setting has the value that counts for it.
-/
theorem load_takes_highest_source (host : Host) (file : Option Path) (sources : Sources)
    (hproject : projectLayer host = .ok sources.project.toList)
    (hexplicit : explicitLayer host file = .ok sources.explicit.toList)
    (hoverrides : (Table.keys sources.overrides).Nodup) :
    (∀ key, sources.firstUnknown? = some key →
      ∃ value source failure, sources.winner? key = some (value, source) ∧
        load host file sources.overrides = .error failure ∧
        Tells host.platform key value "unknown configuration key" source failure) ∧
    (∀ key, sources.firstUnknown? = none → sources.firstInvalid? = some key →
      ∃ value source failure, sources.winner? key = some (value, source) ∧
        load host file sources.overrides = .error failure ∧
        TellsInvalid host.platform key value source failure) ∧
    (sources.firstUnknown? = none → sources.firstInvalid? = none →
      ∃ settings, load host file sources.overrides = .ok settings ∧
        settings.Shows fun key => (sources.winner? key).map (·.1)) := by
  have hfound : sources.Found host file := ⟨hproject, hexplicit, hoverrides⟩
  refine ⟨?_, ?_, ?_⟩
  . intro key hkey
    exact Sources.load_of_unknown hfound hkey
  . intro key hknown hkey
    exact Sources.load_of_invalid hfound hknown hkey
  . intro hknown hvalid
    exact Sources.load_of_valid hfound hknown hvalid

def settingsHost (project explicit : List UInt8) : Host where
  tree := .directory [("paradigm-meter.toml", .file project), ("c", .file explicit)]
  cwd := []
  denied := []

section Sample

variable (project explicit : List UInt8)

theorem projectPath_settingsHost :
    projectPath (settingsHost project explicit) =
      { anchor := .root, names := ["paradigm-meter.toml"] } := rfl

theorem resolve_settingsHost :
    (settingsHost project explicit).resolve (projectPath (settingsHost project explicit)).text =
      .ok (.file project) := by
  rw [projectPath_settingsHost]
  apply Host.resolve_text_of_descend? (by simp) _ _ rfl ⟨by decide, rfl⟩
  . simp only [List.mem_singleton, forall_eq]
    decide
  . simp [settingsHost, Node.descend?, Node.child?, Node.entries]

theorem hasNul_settingsHost :
    Path.hasNul (projectPath (settingsHost project explicit)).text = false := by
  rw [Path.hasNul_text_eq_false_iff]
  rw [projectPath_settingsHost]
  decide

variable {project} in
theorem projectLayer_settingsHost {values : Table Value}
    (hutf8 : Encoding.utf8Fault? 0 project = none)
    (hparse : Toml.parse (Encoding.toChars (Encoding.decodeUtf8 project)) = .ok values) :
    projectLayer (settingsHost project explicit) =
      .ok [{ source := "/paradigm-meter.toml", values }] := by
  have hsource : (projectPath (settingsHost project explicit)).text = "/paradigm-meter.toml" := by
    rw [projectPath_settingsHost]
    decide
  rw [projectLayer_of_resolve rfl (hasNul_settingsHost project explicit)
    (resolve_settingsHost project explicit) hutf8 rfl hparse]
  rw [hsource]

end Sample

theorem load_takes_highest_source_settingsHost :
    projectLayer (settingsHost [97, 61, 49] [97, 61, 50]) =
        .ok [{ source := "/paradigm-meter.toml", values := [("a", .integer 1)] }] ∧
      explicitLayer (settingsHost [97, 61, 49] [97, 61, 50]) (some { anchor := .here, names := ["c"] }) =
        .ok [{ source := "c", values := [("a", .integer 2)] }] ∧
      load (settingsHost [97, 61, 49] [97, 61, 50]) (some { anchor := .here, names := ["c"] })
          [("encoding", .integer 3), ("a", .null), ("quiet", .boolean true)] =
        .error (.problem
          (.invalidSetting "a" (.integer 2) "unknown configuration key" (some "c"))) := by
  let sources : Sources := {
    project := some { source := "/paradigm-meter.toml", values := [("a", .integer 1)] }
    explicit := some { source := "c", values := [("a", .integer 2)] }
    overrides := [("encoding", .integer 3), ("a", .null), ("quiet", .boolean true)] }
  have hproject : projectLayer (settingsHost [97, 61, 49] [97, 61, 50]) =
      .ok sources.project.toList :=
    projectLayer_settingsHost _ (by cbv) (by cbv)
  have hexplicit :
      explicitLayer (settingsHost [97, 61, 49] [97, 61, 50]) (some { anchor := .here, names := ["c"] }) =
        .ok sources.explicit.toList := by
    cbv
  obtain ⟨hunknown, -, -⟩ := load_takes_highest_source _ _ sources hproject hexplicit (by decide)
  obtain ⟨value, source, failure, hwinner, hload, htells⟩ := hunknown "a" (by decide)
  -- the key has a value in both files, and none among the values that are given directly
  have hsecond : sources.winner? "a" = some (.integer 2, "c") := by cbv
  rw [hsecond] at hwinner
  cases hwinner
  have hshown : Value.describeFault? {} (.integer 2) = none := by cbv
  rcases htells with ⟨-, rfl⟩ | ⟨fault, hfault, -⟩
  . exact ⟨hproject, hexplicit, hload⟩
  . exact absurd (hshown.symm.trans hfault) (by simp)

/--
A name that no encoding can have is not reported as a problem with the setting.
-/
theorem load_nul_in_encoding :
    (Sources.mk (some { source := "/paradigm-meter.toml", values := [] }) none
        [("encoding", .text "\x00")]).firstInvalid? = some "encoding" ∧
      projectLayer (settingsHost [] []) = .ok [{ source := "/paradigm-meter.toml", values := [] }] ∧
      load (settingsHost [] []) none [("encoding", .text "\x00")] = .error (.fault .nulInName) := by
  have hproject : projectLayer (settingsHost [] []) =
      .ok [{ source := "/paradigm-meter.toml", values := [] }] :=
    projectLayer_settingsHost _ (by cbv) (by cbv)
  refine ⟨by cbv, hproject, ?_⟩
  unfold load
  rw [hproject]
  cbv

end Settings

end ParadigmScan
