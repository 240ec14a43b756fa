import CjsxConversion.Proofs.Conversion.Atomicity
import CjsxConversion.Proofs.Path.Components

/-!
# What becomes of the source

A conversion refuses a destination that has the same components as its input. Files are told apart
by where their paths lead, though, and a path can lead to the input, or to a link or a directory on
the way there, without having its components.

The way of the input is the trail of its path: every location that reading it looks at. A
result that is put anywhere else does not touch the source. One that is put on the way is read in
place of the source, or stands in the way of reading it.

Main results:
* `prepare_eq_ok`: what is known of a request that is not refused.
* `convert_of_same_components`: a destination with the components of the input is refused.
* `source_of_file_off_way`, `source_of_file_on_way`: what a file that is put somewhere does to the
  source.
* `place_not_mem_way`: without links and two dots on either way, the guard is enough.
* `sourceBytes_after_convert`: what is read at the input after a conversion, in every case.
-/

namespace CjsxConversion
namespace Converter

open FileTree

variable {τ : Type}

section Views

variable (c : Converter τ) (r : ConversionRequest) (w : World τ)

/-- The path of the input. -/
def inputOf : Path := c.workingDir.join r.input

/-- The path that the source is read at. -/
def readingOf : Path := c.workingDir.join (c.inputOf r)

/-- The path of the destination. -/
def outputOf : Path := c.workingDir.join (Destination.choose (c.inputOf r) r.output).path

/-- The locations that are looked at for the input. -/
def wayOf : List Location := w.host.files.trailOf w.host.here (c.inputOf r)

/-- What is read at the input. -/
def sourceBytes : Except IoFault Octets := w.host.files.read w.host.here (c.inputOf r)

end Views

/-- A path from the root that neither goes up nor passes a link. -/
structure Straight (t : FileTree) (here : Location) (p : Path) : Prop where
  absolute : p.isAbsolute = true
  level : [Path.dot, Path.dot] ∉ p.segments
  linkless : ∀ l ∈ t.trailOf here p, ∀ target, t.get? l ≠ some (.link target)

variable {c : Converter τ} {id : RunId} {r : ConversionRequest} {w u v : World τ} {p : Prepared}

theorem isAbsolute_join {base q : Path} (h : base.isAbsolute = true) :
    (base.join q).isAbsolute = true := by
  by_cases hq : q.isAbsolute = true
  · rwa [Path.join_of_isAbsolute base q hq]
  · have hbase : base.spelling ≠ [] := fun hempty => by simp [Path.isAbsolute, hempty] at h
    rwa [Path.isAbsolute_join_eq hbase (by simpa using hq)]

/-- What is known of a request that is not refused. -/
theorem prepare_eq_ok (h : c.prepare r w.host = .ok p) :
    StageOptions.resolve c.catalog r.config.options = .ok p.options ∧
      p.input = c.inputOf r ∧ p.output = c.outputOf r ∧ p.output.same p.input = false ∧
      c.findLinter r.config w.host = .ok p.eslint ∧
      c.readSource p.input w.host = .ok p.source := by
  unfold prepare at h
  cases hoptions : StageOptions.resolve c.catalog r.config.options with
  | error fault =>
    rw [hoptions] at h
    cases h
  | ok options =>
    rw [hoptions] at h
    simp only [Except.mapError, bind, Except.bind] at h
    split at h
    · cases h
    · next hsame =>
      cases hlinter : c.findLinter r.config w.host with
      | error fault =>
        rw [hlinter] at h
        cases h
      | ok eslint =>
        cases hsource : c.readSource (c.workingDir.join r.input) w.host with
        | error fault =>
          rw [hlinter, hsource] at h
          cases h
        | ok source =>
          rw [hlinter, hsource] at h
          cases h
          exact ⟨rfl, rfl, rfl, by simpa using hsame, rfl, hsource⟩

/-- A destination with the components of the input is refused before anything happens. -/
theorem convert_of_same_components {options : StageOptions}
    (hoptions : StageOptions.resolve c.catalog r.config.options = .ok options)
    (hsame : (c.outputOf r).same (c.inputOf r) = true) :
    c.convert id r w = (⟨.error (.config (.outputIsInput (c.inputOf r))), []⟩, w) := by
  refine convert_of_refused c id ?_
  unfold outputOf inputOf at hsame
  unfold prepare
  rw [hoptions]
  simp only [Except.mapError, bind, Except.bind, hsame, if_true, inputOf]

/-- Worlds that agree on the way of the input have the same way and the same source. -/
theorem way_and_source_of_agree (h : ∀ l ∈ c.wayOf r w, w.AgreeAt v l) :
    c.wayOf r v = c.wayOf r w ∧ c.sourceBytes r v = c.sourceBytes r w := by
  have hhere := (h _ (here_mem_trail _)).here_eq
  have hagree : ∀ l ∈ w.host.files.trailOf w.host.here (c.inputOf r),
      v.host.files.get? l = w.host.files.get? l := fun l hl => (h l hl).get_eq
  unfold wayOf sourceBytes
  rw [hhere]
  exact ⟨trail_of_agree hagree, read_of_agree hagree⟩

/-- Where the working directory or the input is absolute, the source is read at the input. -/
theorem readingOf_eq_inputOf (h : c.workingDir.isAbsolute = true ∨ r.input.isAbsolute = true) :
    c.readingOf r = c.inputOf r := by
  refine Path.join_of_isAbsolute _ _ ?_
  rcases h with habs | habs
  · exact isAbsolute_join habs
  · rwa [inputOf, Path.join_of_isAbsolute _ _ habs]

/-- The source of a request that is not refused has the text that is read. -/
theorem text_of_prepared (h : c.prepare r w.host = .ok p) :
    w.host.files.readText w.host.here (c.readingOf r) = .ok p.source.text := by
  obtain ⟨-, hinput, -, -, -, hsource⟩ := prepare_eq_ok h
  rw [hinput, readSource] at hsource
  unfold readingOf
  cases hread : w.host.files.readText w.host.here (c.workingDir.join (c.inputOf r)) with
  | error fault =>
    rw [hread] at hsource
    cases hsource
  | ok text =>
    rw [hread] at hsource
    rw [← Except.ok.inj hsource]
    rfl

/-- The source of a request that is not refused stands at the end of the way. -/
theorem source_of_prepared (habs : c.workingDir.isAbsolute = true)
    (h : c.prepare r w.host = .ok p) :
    ∃ n, w.host.files.node w.host.here (c.inputOf r) = .ok n := by
  have htext := text_of_prepared h
  rw [readingOf_eq_inputOf (.inl habs)] at htext
  unfold readText at htext
  cases hread : w.host.files.read w.host.here (c.inputOf r) with
  | error fault =>
    rw [hread] at htext
    cases htext
  | ok data => exact exists_node_of_read hread

/-- Straight paths to one location have the same components. -/
theorem same_of_straight {t : FileTree} {here l above : Location} {name : Octets}
    {input output : Path} (hin : Straight t here input) (hout : Straight t here output)
    (hslash : output.spelling.getLast? ≠ some Path.slash) (hname : IsName name)
    (hwalk : t.walk true linkLimit (startOf here input) input.segments = .ok l)
    (hplace : t.place here output = .ok (above, name)) (hl : above ++ [name] = l) :
    output.same input = true := by
  obtain ⟨-, habove, -, -⟩ := place_eq_ok hplace
  have hnamed := namedSegments_of_place hplace hname
  have hsegments := segments_of_slashless hslash
  have hlevel := hout.level
  have hlinkless := hout.linkless
  rw [hsegments, hnamed] at hlevel
  rw [trailOf, hsegments, hnamed] at hlinkless
  have hend := end_of_straight_walk hin.level hin.linkless hwalk
  have habove := end_of_straight_walk (fun h => hlevel (List.mem_append_left _ h))
    (fun q hq => hlinkless q (trail_subset_append _ _ hq)) habove
  have hnames : output.segments.filter (fun s => !Path.isTrivial s) =
      input.segments.filter fun s => !Path.isTrivial s := by
    have hroot : ∀ q : Path, q.isAbsolute = true → startOf here q = [] :=
      fun q hq => by simp [startOf, hq]
    rw [hroot _ hin.absolute, List.nil_append] at hend
    rw [hroot _ hout.absolute, List.nil_append] at habove
    rw [hsegments, hnamed, List.filter_append, ← habove, ← hend, ← hl]
    simp [hname.1]
  simp [Path.same, Path.components, hin.absolute, hout.absolute, hnames]

/-- On straight ways, the destination is not on the way of the input. What the guard compares
is then what tells files apart. -/
theorem place_not_mem_way (habs : c.workingDir.isAbsolute = true)
    (hprepare : c.prepare r w.host = .ok p) {above : Location} {name : Octets}
    (hin : Straight w.host.files w.host.here (c.inputOf r))
    (hout : Straight w.host.files w.host.here (c.outputOf r))
    (hslash : (c.outputOf r).spelling.getLast? ≠ some Path.slash) (hname : IsName name)
    (hplace : w.host.files.place w.host.here (c.outputOf r) = .ok (above, name))
    (hdir : w.host.files.get? (above ++ [name]) ≠ some .directory) :
    above ++ [name] ∉ c.wayOf r w := by
  intro hmem
  obtain ⟨n, hn⟩ := source_of_prepared habs hprepare
  obtain ⟨-, l, hwalk, -⟩ := node_eq_ok_iff.1 hn
  rcases passed_of_walk hwalk hmem with hend | hpassed | ⟨target, hpassed⟩
  · obtain ⟨-, hinput, houtput, hdiffer, -⟩ := prepare_eq_ok hprepare
    have hsame := same_of_straight hin hout hslash hname hwalk hplace hend
    rw [hinput, houtput, hsame] at hdiffer
    cases hdiffer
  · exact hdir hpassed
  · exact hin.linkless _ hmem target hpassed

/-- A file that is put off the way of the input does not touch the source. -/
theorem source_of_file_off_way {files : FileTree} {l : Location} {data : Octets} {mode : Nat}
    (hfile : v.host.files.WithFile files l data mode) (hl : l ∉ c.wayOf r v) :
    c.wayOf r { v with host := { v.host with files } } = c.wayOf r v ∧
      c.sourceBytes r { v with host := { v.host with files } } = c.sourceBytes r v :=
  way_and_source_of_agree fun q hq =>
    ⟨hfile.elsewhere q fun e => hl (e ▸ hq), rfl, rfl⟩

/-- A file that is put on the way of the input is read in place of the source, or nothing is. -/
theorem source_of_file_on_way {files : FileTree} {l : Location} {data : Octets} {mode : Nat}
    (hfile : v.host.files.WithFile files l data mode) (hl : l ∈ c.wayOf r v)
    (hcheck : checkSpelling (c.inputOf r) = .ok ()) :
    c.wayOf r { v with host := { v.host with files } } ⊆ c.wayOf r v ∧
      (c.sourceBytes r { v with host := { v.host with files } } = .ok data ∨
        c.sourceBytes r { v with host := { v.host with files } } =
          .error OsFault.notDirectory.toIoFault) :=
  ⟨hfile.trailOf_subset hl, hfile.read_of_mem_trail hl hcheck⟩

/-- What is read at the input after a conversion. A destination with the components of the input
is refused. A conversion that fails keeps the source. One that succeeds keeps it if the destination
is not on the way of the input; otherwise the result is read in its place, or nothing is. Without
links and two dots on the ways, the destination is not on the way of the input. -/
theorem sourceBytes_after_convert (c : Converter τ) (id : RunId) (r : ConversionRequest)
    (w : World τ) (habs : c.workingDir.isAbsolute = true)
    (hstages : ∀ l ∈ c.wayOf r w, c.StagesSpare id r w l)
    (hlinter : ∀ p run u, c.untilLinter id r w = (.ok (p, run), u) →
      ∀ l ∈ c.wayOf r w, u.AgreeAt (c.lintIf p.eslint p.output u).2 l) :
    (∀ options, StageOptions.resolve c.catalog r.config.options = .ok options →
      (c.outputOf r).same (c.inputOf r) = true →
      c.convert id r w = (⟨.error (.config (.outputIsInput (c.inputOf r))), []⟩, w)) ∧
    (∀ failure, (c.convert id r w).1.result = .error failure →
      c.sourceBytes r (c.convert id r w).2 = c.sourceBytes r w) ∧
    (∀ summary, (c.convert id r w).1.result = .ok summary →
      ∃ text above name, summary.run.outcome = .ok text ∧
        (c.afterStages id r w).host.files.place (c.afterStages id r w).host.here (c.outputOf r) =
          .ok (above, name) ∧
        (above ++ [name] ∉ c.wayOf r w →
          c.sourceBytes r (c.convert id r w).2 = c.sourceBytes r w) ∧
        (above ++ [name] ∈ c.wayOf r w →
          c.sourceBytes r (c.convert id r w).2 = .ok (Utf8.encode text) ∨
          c.sourceBytes r (c.convert id r w).2 = .error OsFault.notDirectory.toIoFault) ∧
        ((∀ l ∈ w.host.files.trailOf w.host.here (c.outputOf r), c.StagesSpare id r w l) →
          w.host.files.place w.host.here (c.outputOf r) = .ok (above, name) ∧
          (Straight w.host.files w.host.here (c.inputOf r) →
            Straight w.host.files w.host.here (c.outputOf r) → above ++ [name] ∉ c.wayOf r w))) := by
  refine ⟨fun options => convert_of_same_components, ?_, ?_⟩
  · intro failure h
    rw [untilLinter_eq_error (convert_eq_error_iff.1 h)]
    exact (way_and_source_of_agree hstages).2
  · intro summary h
    obtain ⟨hresult, hworld⟩ := c.convert_eq id r w
    rw [hresult] at h
    rw [hworld]
    cases huntil : c.untilLinter id r w with
    | mk outcome u =>
      rw [huntil] at h
      cases outcome with
      | error failure => cases h
      | ok done =>
        obtain ⟨p, run⟩ := done
        cases h
        obtain ⟨hprepare, -, text, above, name, files, htext, hu, hreplaced⟩ :=
          untilLinter_eq_ok huntil
        obtain ⟨-, hinput, houtput, -⟩ := prepare_eq_ok hprepare
        rw [houtput] at hreplaced
        obtain ⟨hway, hsource⟩ := way_and_source_of_agree hstages
        have hlint := hlinter p run u huntil
        refine ⟨text, above, name, htext, hreplaced.place_eq, ?_, ?_, ?_⟩
        · intro hoff
          rw [← hway] at hoff
          obtain ⟨hway', hkept⟩ := source_of_file_off_way hreplaced.withFile hoff
          rw [← hu, hway] at hway'
          rw [← hu, hsource] at hkept
          rw [(way_and_source_of_agree fun l hl => hlint l (hway' ▸ hl)).2, hkept]
        · intro hon
          obtain ⟨n, hn⟩ := source_of_prepared habs hprepare
          have hcheck := (node_eq_ok_iff.1 hn).1
          rw [← hway] at hon
          obtain ⟨hway', hlost⟩ := source_of_file_on_way hreplaced.withFile hon hcheck
          rw [← hu, hway] at hway'
          rw [← hu] at hlost
          rw [(way_and_source_of_agree fun l hl => hlint l (hway' hl)).2]
          exact hlost
        · intro hspare
          have hplace := (place_and_mode_of_spared hspare).1 ▸ hreplaced.place_eq
          have hdest := hspare _ (place_mem_trailOf hplace hreplaced.isName)
          refine ⟨hplace, fun hin hout => ?_⟩
          exact place_not_mem_way habs hprepare hin hout hreplaced.slashless hreplaced.isName
            hplace (hdest.get_eq ▸ hreplaced.not_directory)

/-! ### A destination spelled in another way -/

/-- A converter at the root, for tools without flags, each of whose stages answers with the same
text, and none of whose tools touches a file. -/
def answering (text : String) : Converter Unit where
  workingDir := .ofString "/"
  catalog := ⟨⟨"", "", [], .nil⟩, ⟨"", "", [], .nil⟩⟩
  transformers := fun _ _ => .ofFn fun _ _ w => (.ok text, w)
  startLinter := fun _ _ w => (.error .notText, w)

/-- A file beside an empty directory. -/
def sampleWorld : World Unit where
  host :=
    { files := ⟨[([Utf8.encode "d"], .directory),
        ([Utf8.encode "a"], .file (Utf8.encode "x") 0o644)]⟩ }
  memory := ()

/-- A request whose destination is beside its input. -/
def besideRequest : ConversionRequest :=
  { input := .ofString "a", output := some (.ofString "b") }

/-- A request whose destination is its input, with a detour. -/
def detourRequest : ConversionRequest :=
  { input := .ofString "a", output := some (.ofString "d/../a") }

/-- A result that is put beside the source keeps it. -/
theorem source_kept_beside :
    ((answering "y").convert .zero besideRequest sampleWorld).1.result.toOption.isSome = true ∧
      (answering "y").sourceBytes besideRequest
          ((answering "y").convert .zero besideRequest sampleWorld).2 =
        (answering "y").sourceBytes besideRequest sampleWorld := by
  have hsucceeds :
      ((answering "y").convert .zero besideRequest sampleWorld).1.result.toOption.isSome = true := by
    decide +kernel
  obtain ⟨-, hfails, hdone⟩ := sourceBytes_after_convert (answering "y") .zero besideRequest
    sampleWorld (by decide +kernel)
    (fun l _ => stagesSpare_of_each fun s q v hv => by cases s <;> exact hv)
    (fun p run u _ l _ => by cases p.eslint <;> exact ⟨rfl, rfl, rfl⟩)
  refine ⟨hsucceeds, ?_⟩
  cases hresult : ((answering "y").convert .zero besideRequest sampleWorld).1.result with
  | error failure => exact hfails failure hresult
  | ok summary =>
    obtain ⟨text, above, name, -, hplace, hoff, -⟩ := hdone summary hresult
    have hroot : ((answering "y").afterStages .zero besideRequest sampleWorld).host.files.place
        ((answering "y").afterStages .zero besideRequest sampleWorld).host.here
        ((answering "y").outputOf besideRequest) = .ok ([], Utf8.encode "b") := by
      decide +kernel
    have hway : (answering "y").wayOf besideRequest sampleWorld =
        [[], [Utf8.encode "a"], [Utf8.encode "a"]] := by
      have hsegments : ((answering "y").inputOf besideRequest).segments = [Utf8.encode "a"] := by
        decide +kernel
      rw [wayOf, trailOf, hsegments, trail_of_goes (n := linkLimit) (l := [Utf8.encode "a"]) rfl,
        trail_nil]
      decide +kernel
    rw [hroot] at hplace
    cases hplace
    refine hoff ?_
    rw [hway]
    decide +kernel

/-- A destination that leads to the input by other components is not refused, and the source is
lost. -/
theorem source_lost_by_detour :
    sampleWorld.host.files.find true [] ((answering "y").outputOf detourRequest) =
        sampleWorld.host.files.find true [] ((answering "y").inputOf detourRequest) ∧
      ((answering "y").convert .zero detourRequest sampleWorld).1.result.toOption.isSome = true ∧
      (answering "y").sourceBytes detourRequest sampleWorld = .ok (Utf8.encode "x") ∧
      (answering "y").sourceBytes detourRequest
          ((answering "y").convert .zero detourRequest sampleWorld).2 = .ok (Utf8.encode "y") := by
  refine ⟨?_, ?_, ?_, ?_⟩
  · decide +kernel
  · decide +kernel
  · decide +kernel
  · decide +kernel

end Converter
end CjsxConversion
