import CjsxConversion.Proofs.FileTree.NewFile
import CjsxConversion.Proofs.Text.Lossy
import CjsxConversion.Proofs.Text.Trimming
import CjsxConversion.Proofs.Tool.Misconfiguration

/-!
# What tools are given and what they answer

A tool may do anything with what it is given, so that here it is any function from its words, its
standard input and its scratch file to how it ends and what it leaves in that file. Such a function
is started on the files of a machine, where scratch files are made, read and removed.

A workshop is a machine that knows the scratch file of its tool, and notes what the tool
is given. The channel of a tool is where its result is taken from.

Main results:
* `read_scratch`: a scratch file has what it was made with, and then what the tool leaves there.
* `collect_eq_ok_iff`: which results count.
* `diagnostic_of_shown`, `diagnostic_shows`: what a user is told of a tool that fails.
* `tool_answers`: what a tool is given, and what comes of it.
-/

namespace CjsxConversion

/-- What a tool is given. -/
structure Supply where
  words : String × List String
  input : Octets
  scratch : Option Octets
  deriving DecidableEq, Repr

/-- What a tool leaves behind. -/
structure Remains where
  exit : Exit
  scratch : Octets
  deriving DecidableEq, Repr

/-- A machine for one tool. -/
structure Workshop where
  host : Host
  scratch : Option Path := none
  given : List Supply := []

namespace Workshop

/-- What the scratch file holds. -/
def scratchData (w : Workshop) : Option Octets :=
  w.scratch.bind fun p => (w.host.files.read w.host.here p).toOption

/-- The workshop with something else in the scratch file. -/
def withScratchData (w : Workshop) (data : Octets) : Workshop :=
  match w.scratch.map fun p => w.host.files.find true w.host.here p with
  | some (.ok l) => { w with host := { w.host with files := w.host.files.fill l data } }
  | _ => w

/-- The workshop when a tool that was given something has ended. -/
def after (w : Workshop) (supply : Supply) (remains : Remains) : Workshop :=
  { w.withScratchData remains.scratch with given := w.given ++ [supply] }

/-- A workshop as a workbench on which a tool is started. -/
def bench (tool : Supply → Remains) : Workbench Workshop where
  create := fun suffix content w =>
    let (made, host) := w.host.makeScratch suffix content
    (made, { w with host, scratch := made.toOption })
  launch := fun program args input w =>
    let supply := ⟨(program, args), input, w.scratchData⟩
    (.ok (tool supply).exit, w.after supply (tool supply))
  recover := fun p w => w.host.files.read w.host.here p
  discard := fun p w => { w with host := w.host.discardScratch p, scratch := none }

/-- A tool leaves the scratch file with what it left in it. -/
theorem read_after {w : Workshop} {p : Path} {l : Location} (hscratch : w.scratch = some p)
    (hfind : w.host.files.find true w.host.here p = .ok l) (supply : Supply) (remains : Remains) :
    (w.after supply remains).host.files.read (w.after supply remains).host.here p =
      (w.host.files.fill l remains.scratch).read w.host.here p := by
  simp only [after, withScratchData, hscratch, Option.map_some, hfind]

end Workshop

namespace Host

/-- A scratch file has what it was made with, and then what is put there. -/
theorem read_scratch {h made : Host} {suffix : String} {content : Octets} {p : Path}
    (hmade : h.makeScratch suffix content = (.ok p, made)) :
    made.files.read made.here p = .ok content ∧
      ∃ l, made.files.find true made.here p = .ok l ∧
        ∀ data, (made.files.fill l data).read made.here p = .ok data := by
  unfold makeScratch at hmade
  simp only at hmade
  split at hmade
  · cases hmade
  · next l files hcreated =>
    cases hmade
    obtain ⟨-, hnew⟩ := FileTree.createNew_withFile hcreated
    obtain ⟨hfind, hread⟩ := FileTree.read_of_createNew hcreated hnew.fill
    exact ⟨hread, l, hfind, fun data => (FileTree.read_of_createNew hcreated hnew.fill.fill).2⟩

end Host

namespace ToolFault

variable (program : String) (status : Option Int) {errors : String}

/-- A tool that failed and printed something visible is quoted, without the blanks at the end. -/
theorem diagnostic_of_shown (h : Blank.allBlank errors.toList = false) :
    ∃ blanks, errors.toList = (exited program status errors).diagnostic.toList ++ blanks ∧
      (∀ c ∈ blanks, Blank.isBlank c = true) ∧
      ∃ c, (exited program status errors).diagnostic.toList.getLast? = some c ∧
        Blank.isBlank c = false := by
  have hdiagnostic : (exited program status errors).diagnostic.toList =
      Blank.trimEnd errors.toList := by
    simp [diagnostic, h]
  rw [hdiagnostic]
  obtain ⟨blanks, hcs, hblanks, -⟩ := Blank.trimEnd_spec errors.toList
  exact ⟨blanks, hcs, hblanks, Blank.exists_getLast?_trimEnd h⟩

/-- A tool that failed and printed nothing visible is named, with its status. -/
theorem diagnostic_of_allBlank (h : Blank.allBlank errors.toList = true) :
    (exited program status errors).diagnostic =
      program ++ " exited with status " ++ status.elim "unknown" toString := by
  have hmessage : (exited program status errors).diagnostic =
      (exited program status errors).message := if_pos h
  rw [hmessage]
  cases status <;> rfl

/-- What a user is told of a tool that failed is never blank. -/
theorem diagnostic_shows (errors : String) :
    ∃ c ∈ (exited program status errors).diagnostic.toList, Blank.isBlank c = false := by
  cases h : Blank.allBlank errors.toList with
  | false =>
    obtain ⟨-, -, -, c, hlast, hc⟩ := diagnostic_of_shown program status h
    exact ⟨c, List.mem_of_getLast? hlast, hc⟩
  | true =>
    rw [diagnostic_of_allBlank program status h]
    exact ⟨'e', by simp [String.toList_append], by decide⟩

end ToolFault

namespace ToolSetup

variable {t : ToolSetup} {r : Request} {scratch : Option Path} {tool : Supply → Remains}
  {w : Workshop}

/-- Where the result of a tool is taken from. -/
def channel (t : ToolSetup) (remains : Remains) : Octets :=
  match t.output with
  | .stdout => remains.exit.output
  | .inPlace => remains.scratch

/-- What a tool is given for a request, once it is known how it is started. -/
def supply (t : ToolSetup) (r : Request) (words : String × List String) : Supply where
  words := words
  input := if t.input = .stdin then Utf8.encode r.text else []
  scratch := if t.input ≠ .stdin ∨ t.output = .inPlace then some (Utf8.encode r.text) else none

/-- A result counts exactly if the program says that it succeeded and its octets are a text. -/
theorem collect_eq_ok_iff {σ : Type} {b : Workbench σ} {exit : Exit} {v : σ} {octets : Octets}
    (hoctets : t.resultOctets b scratch exit v = .ok octets) {text : String} :
    t.collect b scratch exit v = .ok text ↔
      exit.isSuccess = true ∧ Utf8.encode text = octets := by
  unfold collect
  split
  · next hsuccess =>
    simp only [hsuccess, true_and, hoctets, bind, Except.bind]
    cases hdecode : Utf8.decode? octets with
    | some s =>
      simp only [Except.ok.injEq]
      constructor
      · rintro rfl
        exact Utf8.encode_of_decode? hdecode
      · rintro rfl
        rw [Utf8.decode?_encode] at hdecode
        exact (Option.some.inj hdecode).symm
    | none =>
      simp only [reduceCtorEq, false_iff]
      rintro rfl
      rw [Utf8.decode?_encode] at hdecode
      cases hdecode
  · next hfails => simp [hfails]

/-- The scratch file that a tool works on for a request, if it works on one, is made. -/
def MakesScratch (t : ToolSetup) (r : Request) (host : Host) : Option Path → Prop
  | none => t.usesScratch = false
  | some p => t.usesScratch = true ∧
      (host.makeScratch t.scratchEnding (Utf8.encode r.text)).1 = .ok p

theorem usesScratch_iff : t.usesScratch = true ↔ t.input ≠ .stdin ∨ t.output = .inPlace := by
  simp [usesScratch]

/-- What comes of a tool that is started: it is started once, with its supply. There is a result
exactly if it succeeds and its channel holds a text, which then is the result. A failure is reported
with the text that all it printed about that is shown as. -/
structure Started (t : ToolSetup) (r : Request) (tool : Supply → Remains)
    (words : String × List String) (answer : Except ToolFault String) (given : List Supply) :
    Prop where
  given_eq : given = [t.supply r words]
  exists_ok_iff : (∃ text, answer = .ok text) ↔
    (tool (t.supply r words)).exit.status = some 0 ∧
      (Utf8.decode? (t.channel (tool (t.supply r words)))).isSome
  ok_iff : ∀ text, answer = .ok text ↔
    (tool (t.supply r words)).exit.status = some 0 ∧
      Utf8.encode text = t.channel (tool (t.supply r words))
  of_failure : (tool (t.supply r words)).exit.status ≠ some 0 → ∃ errors : String,
    answer = .error
      (.exited t.program ((tool (t.supply r words)).exit.status.map Int.ofNat) errors) ∧
    errors = Utf8.decodeLossy (tool (t.supply r words)).exit.errors ∧
    ∀ cs, Utf8.ShownAs (tool (t.supply r words)).exit.errors cs ↔ cs = errors.toList

theorem isSome_decode?_iff {octets : Octets} :
    (Utf8.decode? octets).isSome ↔ ∃ text, Utf8.encode text = octets := by
  constructor
  · intro h
    obtain ⟨text, htext⟩ := Option.isSome_iff_exists.1 h
    exact ⟨text, Utf8.encode_of_decode? htext⟩
  · rintro ⟨text, rfl⟩
    rw [Utf8.decode?_encode]
    rfl

/-- A tool is started with its supply if that is what the workshop has for it. -/
theorem perform_bench {c : CommandLine} {words : String × List String}
    (hc : t.commandLine r scratch = .ok c) (hwords : t.startWords c = .ok words)
    (hdata : w.scratchData = (t.supply r words).scratch) :
    t.perform (Workshop.bench tool) scratch r w =
      (t.collect (Workshop.bench tool) scratch (tool (t.supply r words)).exit
          (w.after (t.supply r words) (tool (t.supply r words))),
        w.after (t.supply r words) (tool (t.supply r words))) := by
  have hsupply : (⟨(words.1, words.2), t.standardInput r, w.scratchData⟩ : Supply) =
      t.supply r words := by
    rw [hdata]
    rfl
  have hlaunch : (Workshop.bench tool).launch words.1 words.2 (t.standardInput r) w =
      (.ok (tool (t.supply r words)).exit,
        w.after (t.supply r words) (tool (t.supply r words))) := by
    rw [← hsupply]
    rfl
  unfold perform
  simp only [hc, hwords, bind, Except.bind, hlaunch]

/-- Where the channel can be read, what is collected of the tool is what comes of it. -/
theorem started_of_channel {words : String × List String} {v : Workshop}
    (hgiven : v.given = [t.supply r words])
    (hchannel : t.resultOctets (Workshop.bench tool) scratch (tool (t.supply r words)).exit v =
      .ok (t.channel (tool (t.supply r words)))) :
    t.Started r tool words
      (t.collect (Workshop.bench tool) scratch (tool (t.supply r words)).exit v) v.given := by
  have hok := fun text : String => (collect_eq_ok_iff hchannel : _ = Except.ok text ↔ _)
  simp only [Exit.isSuccess, decide_eq_true_eq] at hok
  refine ⟨hgiven, ?_, hok, fun hfails => ?_⟩
  · simp only [hok, exists_and_left, isSome_decode?_iff]
  · exact ⟨_, collect_of_failure t _ _ _ _ (by simpa [Exit.isSuccess] using hfails), rfl,
      fun cs => Utf8.shownAs_iff⟩

/-- Once the scratch file is made, if there is to be one, the tool is run in a workshop that has its
supply, and where its channel can be read when it has ended. -/
theorem exists_workshop {host : Host} (hscratch : t.MakesScratch r host scratch)
    (tool : Supply → Remains) :
    ∃ w : Workshop, w.given = [] ∧ (∀ words, w.scratchData = (t.supply r words).scratch) ∧
      (∀ supply remains, t.resultOctets (Workshop.bench tool) scratch remains.exit
        (w.after supply remains) = .ok (t.channel remains)) ∧
      (t.invoke (Workshop.bench tool) r { host }).1 =
        (t.perform (Workshop.bench tool) scratch r w).1 ∧
      (t.invoke (Workshop.bench tool) r { host }).2.given =
        (t.perform (Workshop.bench tool) scratch r w).2.given := by
  cases scratch with
  | none =>
    have huses : t.usesScratch = false := hscratch
    obtain ⟨hinput, hplace⟩ := usesScratch_eq_false_iff.1 huses
    have hinvoke : t.invoke (Workshop.bench tool) r { host } =
        t.perform (Workshop.bench tool) none r { host } := by
      simp [invoke, huses]
    refine ⟨{ host }, rfl, fun words => ?_, fun supply remains => ?_, by rw [hinvoke],
      by rw [hinvoke]⟩
    · simp [supply, hinput, hplace, Workshop.scratchData]
    · simp only [resultOctets, channel, hplace]
  | some p =>
    obtain ⟨huses, hmade⟩ := hscratch
    cases hboth : host.makeScratch t.scratchEnding (Utf8.encode r.text) with
    | mk answer made =>
      obtain rfl : answer = .ok p := by
        rw [hboth] at hmade
        exact hmade
      obtain ⟨hread, l, hfind, hfilled⟩ := Host.read_scratch hboth
      have hcreate : (Workshop.bench tool).create t.scratchEnding (Utf8.encode r.text) { host } =
          (.ok p, { host := made, scratch := some p }) := by
        simp [Workshop.bench, hboth]
        rfl
      let w : Workshop := { host := made, scratch := some p }
      have hinvoke : t.invoke (Workshop.bench tool) r { host } =
          ((t.perform (Workshop.bench tool) (some p) r w).1,
            (Workshop.bench tool).discard p (t.perform (Workshop.bench tool) (some p) r w).2) := by
        simp [invoke, huses, hcreate, w]
      refine ⟨w, rfl, fun words => ?_, fun supply remains => ?_, by rw [hinvoke],
        by rw [hinvoke]; rfl⟩
      · rw [supply, if_pos (usesScratch_iff.1 huses), Workshop.scratchData, Option.bind_some, hread]
        rfl
      · -- what the tool leaves in the file is read back from there
        cases hplace : t.output with
        | stdout => simp only [resultOctets, channel, hplace]
        | inPlace =>
          have hleft := Workshop.read_after (w := w) rfl hfind supply remains
          rw [hfilled] at hleft
          simp only [resultOctets, channel, hplace, Workshop.bench, hleft, Except.mapError]

/-- What tools are given and what they answer: once its command line is built, a tool is started
exactly once with its supply, and a result counts exactly if the tool succeeds and its channel holds
a text, which then is the result. If it fails, all that it printed about that is kept, with a
replacement character for each part that is broken, and what a user is told is never blank. Only a
word that no shell can be given keeps a tool from being started. No tool is ever without a scratch
file that its result is to be in. -/
theorem tool_answers (tool : Supply → Remains) (t : ToolSetup) (r : Request) (host : Host)
    (scratch : Option Path) (hscratch : t.MakesScratch r host scratch) {c : CommandLine}
    (hc : t.commandLine r scratch = .ok c) :
    (∀ words, t.startWords c = .ok words →
      t.Started r tool words (t.invoke (Workshop.bench tool) r { host }).1
        (t.invoke (Workshop.bench tool) r { host }).2.given) ∧
    (∀ fault, t.startWords c = .error fault → t.shell = .shell ∧
      (t.invoke (Workshop.bench tool) r { host }).1 = .error fault ∧
      (t.invoke (Workshop.bench tool) r { host }).2.given = []) ∧
    (∀ program status errors,
      (∃ c ∈ (ToolFault.exited program status errors).diagnostic.toList,
        c.toNat ∉ Blank.whiteSpace) ∧
      ((∃ c ∈ errors.toList, c.toNat ∉ Blank.whiteSpace) → ∃ blanks,
        errors.toList = (ToolFault.exited program status errors).diagnostic.toList ++ blanks ∧
        (∀ c ∈ blanks, c.toNat ∈ Blank.whiteSpace) ∧
        ∃ c, (ToolFault.exited program status errors).diagnostic.toList.getLast? = some c ∧
          c.toNat ∉ Blank.whiteSpace) ∧
      ((∀ c ∈ errors.toList, c.toNat ∈ Blank.whiteSpace) →
        (ToolFault.exited program status errors).diagnostic =
          program ++ " exited with status " ++ status.elim "unknown" toString)) ∧
    ∀ (σ : Type) (b : Workbench σ) (v : σ), (t.invoke b r v).1 ≠ .error (.misconfigured
      (t.program ++ " writes in place but no scratch file exists")) := by
  obtain ⟨w, hgiven, hdata, hchannel, hanswer, hsupplies⟩ := exists_workshop hscratch tool
  rw [hanswer, hsupplies]
  refine ⟨fun words hwords => ?_, fun fault hfault => ?_, fun program status errors => ?_,
    fun σ b v => t.invoke_ne_no_scratch b r v⟩
  · rw [perform_bench hc hwords (hdata words)]
    exact started_of_channel (by simp [Workshop.after, hgiven]) (hchannel _ _)
  · have herror : t.commandLine r scratch >>= t.startWords = .error fault := by
      rw [hc]
      exact hfault
    rw [perform_of_error herror]
    refine ⟨?_, rfl, hgiven⟩
    cases hshell : t.shell with
    | direct => simp [startWords, hshell] at hfault
    | shell => rfl
  · simp only [← Blank.isBlank_iff, Bool.not_eq_true]
    refine ⟨ToolFault.diagnostic_shows program status errors, ?_,
      fun hall => ToolFault.diagnostic_of_allBlank program status (List.all_eq_true.2 hall)⟩
    rintro ⟨c, hc, hshown⟩
    refine ToolFault.diagnostic_of_shown program status (Bool.eq_false_iff.2 fun hall => ?_)
    rw [List.all_eq_true.1 hall c hc] at hshown
    cases hshown

/-- A tool that rewrites its scratch file. -/
def rewriter : ToolSetup :=
  { program := "tool", args := ["\x7binput\x7d"], input := .tempFile ".x", output := .inPlace }

/-- It writes behind what it finds. -/
def marksEnd (supply : Supply) : Remains :=
  ⟨⟨some 0, [], []⟩, supply.scratch.getD [] ++ Utf8.encode "!"⟩

/-- A machine with a directory for scratch files and nothing else. -/
def deskHost : Host := { files := FileTree.empty.put [Utf8.encode "tmp"] .directory }

/-- What a tool writes to its scratch file is its answer. -/
theorem rewriter_answers :
    (rewriter.invoke (Workshop.bench marksEnd) { text := "x" } { host := deskHost }).1 =
      .ok "x!" := by
  have hmade : rewriter.MakesScratch { text := "x" } deskHost
      (some (.ofString "/tmp/cjsx-to-jsx-000000.x")) := by
    refine ⟨rfl, ?_⟩
    decide +kernel
  obtain ⟨c, hc⟩ := rewriter.exists_commandLine_of_scratch { text := "x" }
    (.ofString "/tmp/cjsx-to-jsx-000000.x")
  have hstarted := (tool_answers marksEnd rewriter { text := "x" } deskHost _ hmade hc).1 _ rfl
  refine (hstarted.ok_iff "x!").2 ⟨rfl, ?_⟩
  simp only [channel, supply, marksEnd, rewriter]
  decide +kernel

end ToolSetup
end CjsxConversion
