import ParadigmScan.CommandLine.Options
import ParadigmScan.Proofs.Failure

/-!
This module contains how a command line is read. Arguments that are written out in full are read as they were meant,
and a request is accepted if and only if the values of its options can be used.
-/

namespace ParadigmScan

namespace CommandLine

namespace Flag

theorem long_ne_dashes (flag : Flag) : (flag.long == "--") = false := by
  cases flag <;> decide

theorem startsWith_long (flag : Flag) : flag.long.startsWith "--" = true := by
  rw [String.startsWith_string_iff]
  cases flag <;> decide

theorem ofLong?_long (flag : Flag) : ofLong? flag.long = some flag := by
  cases flag <;> decide

def spelled : Flag × String → List String
  | (flag, value) => if flag.takesValue then [flag.long, value] else [flag.long]

end Flag

theorem cutValue_long (flag : Flag) : cutValue flag.long = (flag.long, none) := by
  cases flag <;> decide

theorem readLong_of_takesValue {flag : Flag} (h : flag.takesValue = true) (value : String)
    (rest : List String) (read : Arguments) :
    readLong flag.long (value :: rest) read = .ok (read.addFlag flag value, rest) := by
  simp [readLong, cutValue_long, Flag.ofLong?_long, h]

theorem readLong_of_not_takesValue {flag : Flag} (h : flag.takesValue = false) (rest : List String)
    (read : Arguments) : readLong flag.long rest read = .ok (read.addFlag flag "", rest) := by
  simp [readLong, cutValue_long, Flag.ofLong?_long, h]

theorem readArguments_of_readLong {flag : Flag} {rest rest' : List String} {read read' : Arguments}
    (h : readLong flag.long rest read = .ok (read', rest')) :
    readArguments (flag.long :: rest) read = readArguments rest' read' := by
  rw [readArguments]
  rw [Flag.long_ne_dashes]
  rw [Flag.startsWith_long]
  simp only [Bool.false_eq_true, ↓reduceIte]
  split
  . next hread =>
    rw [h] at hread
    cases hread
    rfl
  . next hread =>
    rw [h] at hread
    cases hread

namespace Arguments

def spelled (arguments : Arguments) : List String :=
  arguments.flags.flatMap Flag.spelled ++ "--" :: arguments.others

theorem readArguments_flags {flags : List (Flag × String)}
    (h : ∀ flag ∈ flags, flag.1.takesValue = false → flag.2 = "") (others : List String)
    (read : Arguments) :
    readArguments (flags.flatMap Flag.spelled ++ "--" :: others) read =
      .ok { flags := read.flags ++ flags, others := read.others ++ others } := by
  induction flags generalizing read with
  | nil =>
    rw [List.flatMap_nil]
    rw [List.nil_append]
    rw [readArguments]
    rw [if_pos (by decide)]
    rw [List.append_nil]
    rfl
  | cons entry flags ih =>
    obtain ⟨flag, value⟩ := entry
    rw [List.forall_mem_cons] at h
    rw [List.flatMap_cons]
    cases hflag : flag.takesValue with
    | true =>
      simp only [Flag.spelled, hflag, ↓reduceIte, List.cons_append, List.nil_append]
      rw [readArguments_of_readLong (readLong_of_takesValue hflag value _ read)]
      rw [ih h.2]
      simp [addFlag]
    | false =>
      have hvalue := h.1 hflag
      simp only at hvalue
      subst hvalue
      simp only [Flag.spelled, hflag, Bool.false_eq_true, ↓reduceIte, List.cons_append,
        List.nil_append]
      rw [readArguments_of_readLong (readLong_of_not_takesValue hflag _ read)]
      rw [ih h.2]
      simp [addFlag]

theorem readArguments_spelled {arguments : Arguments}
    (h : ∀ flag ∈ arguments.flags, flag.1.takesValue = false → flag.2 = "") :
    readArguments arguments.spelled {} = .ok arguments := by
  unfold spelled
  rw [readArguments_flags h]
  rfl

variable {arguments : Arguments} {flag : Flag}

theorem mem_flags_of_value? {value : String} (h : arguments.value? flag = some value) :
    (flag, value) ∈ arguments.flags := by
  obtain ⟨⟨flag', value'⟩, hfind, rfl⟩ := Option.map_eq_some_iff.mp h
  have hflag := List.find?_some hfind
  simp only [beq_iff_eq] at hflag
  subst hflag
  exact List.mem_reverse.mp (List.mem_of_find?_eq_some hfind)

end Arguments

variable {host : Host}

theorem checkPath_eq_ok_iff {label noun bad text : String} {mustExist : Bool} {isBad : Node → Bool} :
    checkPath host label mustExist noun isBad bad text = .ok () ↔
      (∀ node, host.resolve (Path.ofText text).text = .ok node → isBad node = false) ∧
        (mustExist = true → ∃ node, host.resolve (Path.ofText text).text = .ok node) := by
  unfold checkPath
  cases host.resolve (Path.ofText text).text with
  | ok node => cases hbad : isBad node <;> simp [hbad]
  | error error => cases mustExist <;> simp

theorem forIn_check_eq_ok_iff {α ε : Type} {check : α → Except ε Unit} {values : List α} :
    (forIn values PUnit.unit fun value _ => do
      check value
      pure (ForInStep.yield PUnit.unit)) = .ok PUnit.unit ↔ ∀ value ∈ values, check value = .ok () := by
  induction values with
  | nil => simp [pure, Except.pure]
  | cons value values ih =>
    rw [List.forIn_cons]
    rw [List.forall_mem_cons]
    rw [← ih]
    cases check value with
    | ok => simp [bind, Except.bind, pure, Except.pure]
    | error error => simp [bind, Except.bind]

structure Arguments.AreUsable (host : Host) (arguments : Arguments) : Prop where
  config : ∀ text, arguments.value? .config = some text →
    ∃ node, host.resolve (Path.ofText text).text = .ok node ∧ node.isDirectory = false
  output : ∀ text node, arguments.value? .output = some text →
    host.resolve (Path.ofText text).text = .ok node → node.isDirectory = false
  directory : ∀ node, host.resolve (Path.ofText (arguments.others.head?.getD ".")).text = .ok node →
    node.isFile = false
  others : arguments.others.length ≤ 1

theorem checkFlag_config {arguments : Arguments} {text : String}
    (h : arguments.value? .config = some text) :
    checkFlag host arguments .config =
      checkPath host (Flag.label .config) true "file" Node.isDirectory "directory" text := by
  unfold checkFlag
  rw [h]

theorem checkFlag_output {arguments : Arguments} {text : String}
    (h : arguments.value? .output = some text) :
    checkFlag host arguments .output =
      checkPath host (Flag.label .output) false "file" Node.isDirectory "directory" text := by
  unfold checkFlag
  rw [h]

theorem checkFlag_eq_ok_iff {arguments : Arguments} :
    (∀ flag ∈ arguments.flags, checkFlag host arguments flag.1 = .ok ()) ↔
      (∀ text, arguments.value? .config = some text →
        ∃ node, host.resolve (Path.ofText text).text = .ok node ∧ node.isDirectory = false) ∧
      ∀ text node, arguments.value? .output = some text →
        host.resolve (Path.ofText text).text = .ok node → node.isDirectory = false := by
  constructor
  . intro h
    refine ⟨?_, ?_⟩
    . intro text htext
      have hcheck := h _ (Arguments.mem_flags_of_value? htext)
      rw [checkFlag_config htext] at hcheck
      obtain ⟨hbad, hexists⟩ := checkPath_eq_ok_iff.mp hcheck
      obtain ⟨node, hnode⟩ := hexists rfl
      exact ⟨node, hnode, hbad node hnode⟩
    . intro text node htext hnode
      have hcheck := h _ (Arguments.mem_flags_of_value? htext)
      rw [checkFlag_output htext] at hcheck
      exact (checkPath_eq_ok_iff.mp hcheck).1 node hnode
  . rintro ⟨hconfig, houtput⟩ ⟨flag, value⟩ -
    unfold checkFlag
    split
    . next text hflag htext =>
      cases hflag
      obtain ⟨node, hnode, hbad⟩ := hconfig text htext
      refine checkPath_eq_ok_iff.mpr ⟨?_, fun _ => ⟨node, hnode⟩⟩
      intro node' hnode'
      rw [hnode] at hnode'
      cases hnode'
      exact hbad
    . next text hflag htext =>
      cases hflag
      exact checkPath_eq_ok_iff.mpr ⟨fun node hnode => houtput text node htext hnode, by simp⟩
    . rfl

def Arguments.request (arguments : Arguments) : Request where
  directory := (Path.ofText (arguments.others.head?.getD ".")).text
  exclude := arguments.value? .exclude
  json := arguments.has .json
  output := (arguments.value? .output).map Path.ofText
  config := (arguments.value? .config).map Path.ofText
  verbose := arguments.has .verbose
  quiet := arguments.has .quiet
  version := arguments.has .version

theorem readRequest_eq_ok_iff {argv : List String} {arguments : Arguments}
    (hread : readArguments argv {} = .ok arguments) (hhelp : arguments.has .help = false)
    {request : Request} :
    readRequest host argv = .ok request ↔
      arguments.AreUsable host ∧ request = arguments.request := by
  unfold readRequest
  rw [hread]
  simp only [bind_eq_ok_iff, Except.ok.injEq, exists_eq_left', hhelp, Bool.false_eq_true, ↓reduceIte]
  constructor
  . rintro ⟨_, hflags, _, hdirectory, hrequest⟩
    obtain ⟨hconfig, houtput⟩ := checkFlag_eq_ok_iff.mp (forIn_check_eq_ok_iff.mp hflags)
    split at hrequest
    . cases hrequest
    . next hothers =>
      cases hrequest
      refine ⟨⟨hconfig, houtput, ?_, by omega⟩, rfl⟩
      exact (checkPath_eq_ok_iff.mp hdirectory).1
  . rintro ⟨husable, rfl⟩
    refine ⟨PUnit.unit, ?_, (), ?_, ?_⟩
    . exact forIn_check_eq_ok_iff.mpr (checkFlag_eq_ok_iff.mpr ⟨husable.config, husable.output⟩)
    . exact checkPath_eq_ok_iff.mpr ⟨husable.directory, by simp⟩
    . have hothers : ¬ 1 < arguments.others.length := Nat.not_lt.mpr husable.others
      rw [if_neg hothers]
      rfl

end CommandLine

end ParadigmScan
