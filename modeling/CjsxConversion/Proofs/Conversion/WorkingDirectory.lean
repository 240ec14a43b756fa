import CjsxConversion.Proofs.Conversion.Destinations
import CjsxConversion.Proofs.Conversion.Separation

/-!
# What a working directory does to paths

The paths of a request are put behind the working directory, and those that come of it are put
behind it again: the destination once more, and the source once more when it is read. This does no
harm if the directory adds nothing to a path that is behind it already. Otherwise the source is not
the file that was resolved as the input.

`Path.Anchors` says that a directory adds nothing to a path that is behind it.

Main results:
* `components_join_join_iff`: a path that is put behind a directory twice.
* `components_parent_join_join_iff`: the directory of such a path.
* `source_is_input_iff`: which file is read, and where its destination is derived.
-/

namespace CjsxConversion

namespace Path

/-- A directory adds nothing to a path that is behind it already: it is absolute, or the path is, or
it is where relative paths start from. -/
def Anchors (base p : Path) : Prop :=
  base.isAbsolute = true ∨ p.isAbsolute = true ∨ ∀ k ∈ base.components, k = .here

variable {base p q : Path}

instance : Decidable (Anchors base p) :=
  inferInstanceAs (Decidable (_ ∨ _ ∨ _))

/-- Behind a directory that adds nothing, a path stays the same. -/
theorem components_join_join (h : Anchors base p) :
    (base.join (base.join p)).components = (base.join p).components := by
  by_cases hempty : base.spelling = []
  · rw [join_of_empty hempty]
  by_cases hp : p.isAbsolute = true
  · rw [join_of_isAbsolute base p hp, join_of_isAbsolute base p hp]
  have hrelative : p.isAbsolute = false := by simpa using hp
  by_cases hbase : base.isAbsolute = true
  · rw [join_of_isAbsolute base _ (by rw [isAbsolute_join_eq hempty hrelative, hbase])]
  have hhere : base.components.filter (fun k => k ≠ .here) = [] := by
    rcases h with habs | habs | hhere
    · exact absurd habs hbase
    · exact absurd habs hp
    · exact List.filter_eq_nil_iff.2 fun k hk => by simp [hhere k hk]
  have hjoin : (base.join p).isAbsolute = false := by
    rw [isAbsolute_join_eq hempty hrelative]
    simpa using hbase
  rw [components_join_eq hempty hjoin, components_join_eq hempty hrelative, List.filter_append,
    hhere, List.nil_append, List.filter_filter]
  simp

/-- Any other directory is there twice. -/
theorem join_join_of_not_anchors (h : ¬ Anchors base p) :
    ∃ front more rest, front ≠ [] ∧ more ≠ [] ∧
      (base.join p).isAbsolute = false ∧ (base.join (base.join p)).isAbsolute = false ∧
      (base.join p).components = front ++ rest ∧
      (base.join (base.join p)).components = front ++ (more ++ rest) := by
  rw [Anchors, not_or, not_or] at h
  obtain ⟨hbase, hp, hhere⟩ := h
  rw [Bool.not_eq_true] at hbase hp
  have hempty : base.spelling ≠ [] := by
    intro hempty
    exact hhere (by simp [components_of_empty hempty])
  have honce : (base.join p).isAbsolute = false := by rw [isAbsolute_join_eq hempty hp, hbase]
  have htwice : (base.join (base.join p)).isAbsolute = false := by
    rw [isAbsolute_join_eq hempty honce, hbase]
  have hmore : base.components.filter (fun k => k ≠ .here) ≠ [] := by
    intro hnone
    refine hhere fun k hk => ?_
    simpa using List.filter_eq_nil_iff.1 hnone k hk
  refine ⟨base.components, _, _, components_ne_nil hempty, hmore, honce, htwice,
    components_join_eq hempty hp, ?_⟩
  rw [components_join_eq hempty honce, components_join_eq hempty hp, List.filter_append,
    List.filter_filter]
  simp

/-- A path that is put behind a directory twice is what it was exactly if the directory adds
nothing. -/
theorem components_join_join_iff (base p : Path) :
    (base.join (base.join p)).components = (base.join p).components ↔ Anchors base p := by
  refine ⟨fun hsame => ?_, components_join_join⟩
  by_contra h
  obtain ⟨front, more, rest, -, hmore, -, -, honce, htwice⟩ := join_join_of_not_anchors h
  rw [honce, htwice] at hsame
  have hlength := congrArg List.length hsame
  simp only [List.length_append] at hlength
  exact hmore (List.length_eq_zero_iff.1 (by omega))

/-- A relative path of some components has a parent of one component less. -/
theorem length_parent (hp : p.isAbsolute = false) (hne : p.components ≠ []) :
    ∃ front, p.parent.map components = some front ∧ p.components.length = front.length + 1 := by
  obtain ⟨front, k, hlast⟩ : ∃ front k, p.components = front ++ [k] :=
    ⟨_, _, (List.dropLast_concat_getLast hne).symm⟩
  have hk : k ≠ .root := by
    rintro rfl
    exact root_not_mem hp (by simp [hlast])
  exact ⟨front, components_parent_of_concat hlast hk, by simp [hlast]⟩

/-- The same holds for the directory that the path is in. -/
theorem components_parent_join_join_iff (base p : Path) :
    (base.join (base.join p)).parent.map components = (base.join p).parent.map components ↔
      Anchors base p := by
  refine ⟨fun hsame => ?_, fun h => components_parent_congr (components_join_join h)⟩
  by_contra h
  obtain ⟨front, more, rest, hfront, hmore, honce, htwice, hc, hc'⟩ := join_join_of_not_anchors h
  obtain ⟨above, habove, hlength⟩ := length_parent honce (by simp [hc, hfront])
  obtain ⟨above', habove', hlength'⟩ := length_parent htwice (by simp [hc', hfront])
  rw [habove, habove'] at hsame
  obtain rfl := Option.some.inj hsame
  simp only [hc, hc', List.length_append] at hlength hlength'
  exact hmore (List.length_eq_zero_iff.1 (by omega))

end Path

namespace Pipeline

variable {σ : Type} {t : ByStage (Transformer σ)} {o : StageOptions} {c : RunContext}
  {s : Stage} {rest : List Stage} {text : String} {w v : σ} {askings : List Asking}
  {outcome : Except StageFailure String}

/-- The first of some stages is asked with the text that they are given. -/
theorem Settles.exists_first (h : Settles t o c (s :: rest) text w askings v outcome) :
    ∃ later, askings = ⟨s, asked o c text s⟩ :: later := by
  cases answer : t.get s (asked o c text s) w with
  | mk result u =>
    cases result with
    | error fault => exact ⟨[], h.of_error answer⟩
    | ok out =>
      obtain ⟨later, hlater, -⟩ := h.of_ok answer
      exact ⟨later, hlater⟩

theorem asked_filePath (o : StageOptions) (c : RunContext) (text : String) (s : Stage) :
    (asked o c text s).filePath = some (c.pathFor s) := by
  cases s <;> rfl

end Pipeline

namespace Converter

variable {τ : Type} {c : Converter τ} {id : RunId} {r : ConversionRequest} {w : World τ}
  {p : Prepared}

/-- A source that cannot be read is reported with the path that it was to be read at. -/
theorem unread_of_prepare {q : Path} {fault : IoFault}
    (h : c.prepare r w.host = .error (.io "read" q fault)) :
    q = c.readingOf r ∧ w.host.files.readText w.host.here (c.readingOf r) = .error fault := by
  rw [prepare_eq] at h
  cases hoptions : StageOptions.resolve c.catalog r.config.options with
  | error unfit =>
    rw [hoptions] at h
    cases h
  | ok o =>
    rw [hoptions] at h
    have hrest : c.prepareRest r w = .error (.io "read" q fault) := by
      cases hrest : c.prepareRest r w with
      | error failure =>
        rw [hrest] at h
        cases h
        rfl
      | ok found =>
        rw [hrest] at h
        cases h
    unfold prepareRest at hrest
    split at hrest
    · cases hrest
    rcases c.findLinter_cases .zero r w with ⟨f, hfails, hlinter⟩ | ⟨⟨eslint, hlinter⟩, -⟩
    · rw [hlinter] at hrest
      cases hfails
      cases hrest
    · rw [hlinter, readSource] at hrest
      unfold readingOf
      cases hread : w.host.files.readText w.host.here (c.workingDir.join (c.inputOf r)) with
      | error unread =>
        rw [hread] at hrest
        cases hrest
        exact ⟨rfl, rfl⟩
      | ok text =>
        rw [hread] at hrest
        cases hrest

/-- Only reading the source is reported as reading. -/
theorem prepare_of_unread {q : Path} {fault : IoFault}
    (h : (c.convert id r w).1.result = .error (.io "read" q fault)) :
    c.prepare r w.host = .error (.io "read" q fault) := by
  cases hprepare : c.prepare r w.host with
  | error failure =>
    rw [convert_of_refused c id hprepare] at h
    cases h
    rfl
  | ok p =>
    cases houtcome : (c.runOf id r w p).1.outcome with
    | error failure =>
      rw [result_of_halted hprepare houtcome] at h
      cases h
    | ok text =>
      rw [result_of_passed hprepare houtcome, writeResult_fst] at h
      cases hwritten : ((c.runOf id r w p).2.host.files.replaceFile c.refusals
          (c.runOf id r w p).2.host.here (c.runOf id r w p).2.host.mask p.output
          (Utf8.encode text)).1 with
      | error fault =>
        rw [hwritten] at h
        injection h with h
        injection h with h
        exact absurd h (by decide)
      | ok done =>
        rw [hwritten] at h
        cases h

/-- A request for the destination that is derived anyway is the request without it. -/
theorem convert_of_derived (id : RunId) (w : World τ) (hnone : r.output = none) {q : Path}
    (hq : (c.inputOf r).derived = q) :
    c.convert id r w = c.convert id { r with output := some q } w := by
  obtain ⟨input, output, config⟩ := r
  subst hnone hq
  rfl

/-- A derived destination is in the directory that the source is read in. -/
theorem components_parent_outputOf (hnone : r.output = none) :
    (c.outputOf r).parent.map Path.components = (c.readingOf r).parent.map Path.components := by
  have houtput : c.outputOf r = c.workingDir.join (c.inputOf r).derived := by
    unfold outputOf
    rw [hnone]
    rfl
  rw [houtput, readingOf]
  cases hknown : (SourceKind.ofPath (c.inputOf r)).isRenamed with
  | false => rw [Path.derived_of_unknown hknown]
  | true =>
    obtain ⟨name, n, hname, -⟩ := Path.exists_renamedAs hknown
    rw [← Path.components_parent_derived (c.workingDir.join (c.inputOf r))]
    exact (Path.components_parent_congr
      (Path.components_derived_join c.workingDir (Path.fileName?_of_readableName? hname))).symm

/-- The first stage is asked with the source, and every stage knows the paths that were resolved. -/
theorem requests_of_prepared (id : RunId) (h : c.prepare r w.host = .ok p) :
    (∃ options later, c.requests id r w =
      ⟨.macroStrip, ⟨p.source.text, options, some (c.inputOf r)⟩⟩ :: later) ∧
    ∀ a ∈ c.requests id r w,
      a.request.filePath = some ((c.contextOf id r).pathFor a.stage) := by
  obtain ⟨-, hinput, houtput, -⟩ := prepare_eq_ok h
  have hsettles := settles_requests id h
  rw [hinput, houtput] at hsettles
  constructor
  · obtain ⟨rest, hrest⟩ : ∃ rest, Pipeline.needed r.config.skipFormat = .macroStrip :: rest := by
      cases r.config.skipFormat <;> exact ⟨_, rfl⟩
    rw [hrest] at hsettles
    obtain ⟨later, hlater⟩ := hsettles.exists_first
    exact ⟨_, later, hlater⟩
  · intro a ha
    obtain ⟨text, hrequest⟩ := hsettles.request_eq a ha
    rw [hrequest, Pipeline.asked_filePath]
    rfl

/-- Which file is read, and where its destination is derived. The source is read at the path of
the input, which is compared with the destination, told to the stages and given back, exactly if the
working directory adds nothing to it. A destination that is derived is always in the directory of
the file that is read, and so in that of the input under the same condition. -/
theorem source_is_input_iff (c : Converter τ) (id : RunId) (r : ConversionRequest) (w : World τ) :
    ((c.readingOf r).components = (c.inputOf r).components ↔
      Path.Anchors c.workingDir r.input) ∧
    (c.workingDir.isAbsolute = true ∨ r.input.isAbsolute = true → c.readingOf r = c.inputOf r) ∧
    (r.output = none →
      (c.outputOf r).parent.map Path.components = (c.readingOf r).parent.map Path.components ∧
      ((c.outputOf r).parent.map Path.components = (c.inputOf r).parent.map Path.components ↔
        Path.Anchors c.workingDir r.input)) ∧
    (∀ q fault, (c.convert id r w).1.result = .error (.io "read" q fault) →
      q = c.readingOf r ∧ w.host.files.readText w.host.here (c.readingOf r) = .error fault) ∧
    (∀ first later, c.requests id r w = first :: later →
      w.host.files.readText w.host.here (c.readingOf r) = .ok first.request.text) ∧
    (∀ a ∈ c.requests id r w,
      a.request.filePath = some ((c.contextOf id r).pathFor a.stage)) ∧
    ∀ summary, (c.convert id r w).1.result = .ok summary →
      summary.input = c.inputOf r ∧ summary.output = c.outputOf r ∧
        (c.outputOf r).components ≠ (c.inputOf r).components ∧ c.requests id r w ≠ [] := by
  refine ⟨Path.components_join_join_iff _ _, readingOf_eq_inputOf, fun hnone => ?_, ?_, ?_, ?_, ?_⟩
  · rw [components_parent_outputOf hnone]
    exact ⟨rfl, Path.components_parent_join_join_iff _ _⟩
  · intro q fault h
    exact unread_of_prepare (prepare_of_unread h)
  · intro first later h
    cases hprepare : c.prepare r w.host with
    | error failure =>
      rw [requests_of_refused hprepare] at h
      cases h
    | ok p =>
      obtain ⟨options, later', hfirst⟩ := (requests_of_prepared id hprepare).1
      rw [hfirst] at h
      cases h
      exact text_of_prepared hprepare
  · intro a ha
    cases hprepare : c.prepare r w.host with
    | error failure =>
      rw [requests_of_refused hprepare] at ha
      cases ha
    | ok p => exact (requests_of_prepared id hprepare).2 a ha
  · intro summary h
    obtain ⟨p, text, u, hprepare, houtcome, hwrite⟩ := exists_written h
    rw [convert_of_written hprepare houtcome hwrite] at h
    obtain rfl := Except.ok.inj h
    obtain ⟨-, hinput, houtput, hdiffers, -⟩ := prepare_eq_ok hprepare
    obtain ⟨options, later, hfirst⟩ := (requests_of_prepared id hprepare).1
    rw [hinput, houtput] at hdiffers
    refine ⟨hinput, houtput, by simpa [Path.same] using hdiffers, ?_⟩
    rw [hfirst]
    exact List.cons_ne_nil _ _

/-- A converter for a directory, each of whose stages answers with what it is asked. -/
def echoing (dir : String) : Converter Unit :=
  { answering "" with
    workingDir := .ofString dir
    transformers := fun _ _ => .ofFn fun _ q w => (.ok q.text, w) }

/-- A directory in a directory of the same name, each with a file. -/
def nestedWorld : World Unit where
  host :=
    { files := ⟨[([Utf8.encode "w"], .directory),
        ([Utf8.encode "w", Utf8.encode "a.cjsx"], .file (Utf8.encode "x") 0o644),
        ([Utf8.encode "w", Utf8.encode "w"], .directory),
        ([Utf8.encode "w", Utf8.encode "w", Utf8.encode "a.cjsx"],
          .file (Utf8.encode "y") 0o644)]⟩ }
  memory := ()

/-- From the directory that relative paths start from, the file that is read is the input. -/
theorem input_read_from_here :
    ((echoing ".").readingOf { input := .ofString "w/a.cjsx" }).components =
        ((echoing ".").inputOf { input := .ofString "w/a.cjsx" }).components ∧
      ((echoing ".").outputOf { input := .ofString "w/a.cjsx" }).parent.map Path.components =
        ((echoing ".").inputOf { input := .ofString "w/a.cjsx" }).parent.map Path.components ∧
      ∃ first later,
        (echoing ".").requests .zero { input := .ofString "w/a.cjsx" } nestedWorld =
          first :: later ∧
        nestedWorld.host.files.readText [] ((echoing ".").readingOf
          { input := .ofString "w/a.cjsx" }) = .ok first.request.text := by
  obtain ⟨hsame, -, hderived, -, hfirst, -, hdone⟩ :=
    source_is_input_iff (echoing ".") .zero { input := .ofString "w/a.cjsx" } nestedWorld
  have hsucceeds : ((echoing ".").convert .zero { input := .ofString "w/a.cjsx" }
      nestedWorld).1.result.toOption.isSome = true := by
    rw [convert_of_derived (q := .ofString "./w/a.jsx") .zero nestedWorld rfl (by decide +kernel)]
    decide +kernel
  refine ⟨hsame.2 (by decide +kernel), (hderived rfl).2.2 (by decide +kernel), ?_⟩
  cases hresult : ((echoing ".").convert .zero { input := .ofString "w/a.cjsx" }
      nestedWorld).1.result with
  | error failure =>
    rw [hresult] at hsucceeds
    cases hsucceeds
  | ok summary =>
    obtain ⟨-, -, -, hasked⟩ := hdone summary hresult
    obtain ⟨first, later, hlater⟩ := List.exists_cons_of_ne_nil hasked
    exact ⟨first, later, hlater, hfirst first later hlater⟩

/-- From another directory, neither the file that is read nor the directory of the destination is
that of the input. -/
theorem other_file_read :
    nestedWorld.host.files.readText [] (.ofString "w/a.cjsx") = .ok "x" ∧
      ((echoing "w").convert .zero { input := .ofString "a.cjsx" }
          nestedWorld).1.result.toOption.map
        (fun s => (s.input, s.output, s.run.outcome.toOption)) =
      some (.ofString "w/a.cjsx", .ofString "w/w/a.jsx", some "y") := by
  constructor
  · decide +kernel
  · rw [convert_of_derived (q := .ofString "w/a.jsx") .zero nestedWorld rfl (by decide +kernel)]
    decide +kernel

end Converter
end CjsxConversion
