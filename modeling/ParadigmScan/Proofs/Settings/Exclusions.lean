import ParadigmScan.Proofs.FirstUse
import ParadigmScan.Proofs.Listing.Filtering
import ParadigmScan.Settings.Basic

/-!
This module contains which patterns are put together from the settings and a run and in which order, that patterns
which were put together once stay the same when they are put together again, and that a listing takes them for the
patterns they were put together from.
-/

namespace ParadigmScan

namespace Settings

theorem foldl_add_of_mem {done patterns : List String} (h : ∀ pattern ∈ patterns, pattern ∈ done) :
    patterns.foldl exclusions.add done = done := by
  induction patterns with
  | nil => rfl
  | cons pattern patterns ih =>
    rw [List.forall_mem_cons] at h
    rw [List.foldl_cons]
    have hadd : exclusions.add done pattern = done := by
      simp [exclusions.add, h.1]
    rw [hadd]
    exact ih h.2

theorem add_cases (done : List String) (pattern : String) :
    exclusions.add done pattern = done ∨
      pattern ≠ "" ∧ pattern ∉ done ∧ exclusions.add done pattern = done ++ [pattern] := by
  unfold exclusions.add
  split
  . exact .inl rfl
  . next h =>
    simp only [Bool.or_eq_true, String.isEmpty_iff, List.contains_iff_mem, not_or] at h
    exact .inr ⟨h.1, h.2, rfl⟩

theorem foldl_add_foldl_add (done patterns : List String) :
    (patterns.foldl exclusions.add done).foldl exclusions.add done =
      patterns.foldl exclusions.add done := by
  induction patterns using List.reverseRecOn with
  | nil => exact foldl_add_of_mem fun _ h => h
  | append_singleton patterns pattern ih =>
    rw [List.foldl_append]
    rw [List.foldl_cons]
    rw [List.foldl_nil]
    rcases add_cases (patterns.foldl exclusions.add done) pattern with hadd | ⟨-, -, hadd⟩
    . rw [hadd]
      exact ih
    . rw [hadd]
      rw [List.foldl_append]
      rw [ih]
      exact hadd

theorem mem_add {done : List String} {next pattern : String} :
    pattern ∈ exclusions.add done next ↔ pattern ∈ done ∨ pattern ≠ "" ∧ pattern = next := by
  unfold exclusions.add
  split
  . next h =>
    rw [Bool.or_eq_true] at h
    rw [String.isEmpty_iff] at h
    rw [List.contains_iff_mem] at h
    grind
  . next h =>
    rw [Bool.or_eq_true] at h
    rw [String.isEmpty_iff] at h
    grind

theorem mem_foldl_add {done patterns : List String} {pattern : String} :
    pattern ∈ patterns.foldl exclusions.add done ↔
      pattern ∈ done ∨ pattern ≠ "" ∧ pattern ∈ patterns := by
  induction patterns generalizing done with
  | nil => simp
  | cons next patterns ih =>
    rw [List.foldl_cons]
    rw [ih]
    rw [mem_add]
    rw [List.mem_cons]
    tauto

theorem mem_exclusions {configured run : List String} {pattern : String} :
    pattern ∈ exclusions configured run ↔ pattern ≠ "" ∧ pattern ∈ configured ++ run := by
  unfold exclusions
  rw [mem_foldl_add]
  simp

theorem exclusions_exclusions (configured run : List String) :
    exclusions configured (exclusions configured run) = exclusions configured run := by
  unfold exclusions
  rw [List.foldl_append]
  rw [List.foldl_append]
  exact foldl_add_foldl_add _ _

theorem byFirstUse_foldl_add (patterns : List String) :
    ByFirstUse (patterns.foldl exclusions.add []) patterns := by
  induction patterns using List.reverseRecOn with
  | nil => exact .nil
  | append_singleton patterns pattern ih =>
    rw [List.foldl_append]
    rw [List.foldl_cons]
    rw [List.foldl_nil]
    rcases add_cases (patterns.foldl exclusions.add []) pattern with hadd | ⟨hne, hnew, hadd⟩
    . rw [hadd]
      exact ih.concat pattern
    . rw [hadd]
      apply ih.concat_new
      intro hpattern
      exact hnew (mem_foldl_add.mpr (.inr ⟨hne, hpattern⟩))

theorem nodup_exclusions (configured run : List String) : (exclusions configured run).Nodup :=
  (byFirstUse_foldl_add (configured ++ run)).nodup

/--
The patterns of the settings and of a run, put together: no empty pattern, no repetition, and otherwise all of them
in the order in which they first occur. Putting the result together with the settings again changes nothing, and
whether or not links are followed, a listing finds the same with it as with all the patterns as they were given.
-/
theorem exclusions_normalise (configured : List String) (run : Option (List String)) :
    let given := configured ++ run.getD []
    let merged := exclusions configured (run.getD [])
    "" ∉ merged ∧
    merged.Nodup ∧
    (∀ pattern, pattern ∈ merged ↔ pattern ≠ "" ∧ pattern ∈ given) ∧
    (merged.Pairwise fun first second => given.idxOf first < given.idxOf second) ∧
    exclusions configured merged = merged ∧
    ∀ (host : Host) (options : Listing.Options) (top : Path),
      Listing.list? host { options with patterns := merged } top =
        Listing.list? host { options with patterns := given } top := by
  intro given merged
  have hmem : ∀ pattern, pattern ∈ merged ↔ pattern ≠ "" ∧ pattern ∈ given :=
    fun _ => mem_exclusions
  refine ⟨?_, nodup_exclusions _ _, hmem, (byFirstUse_foldl_add _).ordered,
    exclusions_exclusions _ _, ?_⟩
  . intro hempty
    exact ((hmem "").mp hempty).1 rfl
  . intro host options top
    apply Listing.list?_congr
    apply isExcluded_congr
    intro pattern hne
    rw [hmem]
    simp [hne]

end Settings

end ParadigmScan
