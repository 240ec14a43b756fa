import CjsxConversion.Proofs.Conversion.WorkingDirectory
import CjsxConversion.Proofs.FileTree.Rewriting

/-!
# Converting a file again

A conversion that succeeded can be done once more with what it left behind. The first time, its
destination may be new; the second time it is there, with its permission bits. The source is still
what it was, since a derived destination has another name and there are no links. So the same stages
are asked the same, and the same is written.

Transformers are `Functional` if what they answer depends on nothing but what they are
asked, and they leave the world as it is.

Main results:
* `Functional.runOf_eq`: functions make the same run in every world, but for its mark.
* `source_and_place_of_written`: writing a derived destination leaves the source as it is.
* `convert_again`: the second conversion ends as the first one did, and changes nothing.
-/

namespace CjsxConversion

/-- The same conversion with a run under another mark. -/
def Conversion.marked (d : Conversion) (id : RunId) : Conversion :=
  ⟨d.result.map fun summary => { summary with run := summary.run.marked id },
    d.events.map fun e => ⟨id, e.happening⟩⟩

namespace RenamedAs

variable {kind : SourceKind} {name n : Octets}

/-- A new name is not that of a file that is made beside a destination. -/
theorem ne_scratchName (h : RenamedAs kind name n) (k : Nat) : n ≠ FileTree.scratchName k := by
  obtain ⟨-, hjsx, -, hjs⟩ := Path.encode_endings
  have hdigits : FileTree.sixDigits k ≠ [] := by
    intro hnil
    simpa [hnil] using FileTree.six_le_length_sixDigits k
  have hlast : ∃ b, n.getLast? = some b ∧ 57 < b.toNat := by
    cases h with
    | cjsx stem => exact ⟨120, by simp [hjsx], by decide⟩
    | coffee stem => exact ⟨115, by simp [hjs], by decide⟩
  rintro rfl
  obtain ⟨b, hb, hlarge⟩ := hlast
  rw [FileTree.scratchName, List.append_nil, List.getLast?_append_of_ne_nil _ hdigits] at hb
  have hrange := FileTree.mem_sixDigits (List.mem_of_getLast? hb)
  omega

end RenamedAs

namespace Converter

open FileTree

variable {τ : Type} {c : Converter τ} {id id' : RunId} {r : ConversionRequest} {w v u : World τ}
  {p : Prepared} {text : String}

/-- The transformers for a chain of tools are functions of what they are asked: they answer alike
on every machine, and leave the world as it is. -/
def Functional (c : Converter τ) (tools : Toolchain) : Prop :=
  ∃ answer : Stage → Request → Except ToolFault String,
    ∀ h s q w, ((c.transformers tools h).get s q w) = (answer s q, w)

/-- Functions run alike in every world, but for the mark of the run, and leave the world as it
is. -/
theorem Functional.runOf_eq (h : c.Functional r.config.toolchain) (id id' : RunId)
    (w v : World τ) (p : Prepared) :
    c.runOf id' r v p = ((c.runOf id r w p).1.marked id', v) := by
  obtain ⟨answer, hanswer⟩ := h
  have hstep : ∀ (x : World τ) (k : RunId) s text y,
      (c.pipeline r p x.host).steps.get s ⟨k, p.input, p.output⟩ text y =
        ((answer s (Pipeline.asked p.options ⟨.zero, p.input, p.output⟩ text s)).mapError
          fun fault => ⟨s, fault.diagnostic⟩, y) := by
    intro x k s text y
    have hasked : Pipeline.asked p.options ⟨k, p.input, p.output⟩ text s =
        Pipeline.asked p.options ⟨.zero, p.input, p.output⟩ text s := by
      cases s <;> rfl
    have hget := hanswer x.host s (Pipeline.asked p.options ⟨k, p.input, p.output⟩ text s) y
    rw [← hasked]
    exact Pipeline.step_of_answer _ _ _ r.config.skipFormat hget
  exact Pipeline.run_simulates (p := c.pipeline r p w.host) (q := c.pipeline r p v.host)
    (c := ⟨id, p.input, p.output⟩) (d := ⟨id', p.input, p.output⟩) (e := fun _ => v) rfl rfl
    (fun s text y => by rw [hstep, hstep]) p.source w

theorem writeResult_eq_ok_iff {output : Path} :
    c.writeResult output text w = (.ok (), u) ↔
      ∃ files, w.host.files.replaceFile c.refusals w.host.here w.host.mask output
          (Utf8.encode text) = (.ok (), files) ∧
        u = { w with host := { w.host with files } } := by
  unfold writeResult
  rcases w.host.files.replaceFile c.refusals w.host.here w.host.mask output
    (Utf8.encode text) with ⟨fault | ⟨⟩, files⟩
  · simp [Except.mapError]
  · simp [Except.mapError, eq_comm]

/-- A request without the linter is prepared alike where the source reads alike. -/
theorem prepare_congr (hlint : r.config.eslintFix = false)
    (hread : v.host.files.readText v.host.here (c.readingOf r) =
      w.host.files.readText w.host.here (c.readingOf r)) :
    c.prepare r v.host = c.prepare r w.host := by
  have hlinter : ∀ h, c.findLinter r.config h = .ok none := fun h => by simp [findLinter, hlint]
  have hsource : c.readSource (c.inputOf r) v.host = c.readSource (c.inputOf r) w.host := by
    unfold readingOf at hread
    simp only [readSource, hread]
  have hrest : c.prepareRest r v = c.prepareRest r w := by
    simp only [prepareRest, hlinter, hsource]
  rw [prepare_eq, prepare_eq, hrest]

/-- What the names of the input and of a derived destination have to do with each other. -/
theorem exists_renamed (habs : c.workingDir.isAbsolute = true) (hnone : r.output = none)
    (hdiffers : (c.outputOf r).same (c.inputOf r) = false) :
    ∃ front kind name n, RenamedAs kind name n ∧
      (c.inputOf r).components = front ++ [.name name] ∧
      (c.outputOf r).components = front ++ [.name n] := by
  rw [outputOf_of_none habs hnone] at hdiffers ⊢
  rcases (c.inputOf r).derived_cases with hsame | ⟨front, kind, name, n, hrenamed, hp, hderived⟩
  · rw [hsame, Path.same] at hdiffers
    simp at hdiffers
  · exact ⟨front, kind, name, n, hrenamed, hp, hderived⟩

/-- A derived destination that was written does not touch the source, and has no name of a file that
is made beside it. -/
theorem source_and_place_of_written (habs : c.workingDir.isAbsolute = true)
    (hnone : r.output = none) (hlinks : w.host.files.Linkless)
    (hprepare : c.prepare r w.host = .ok p) {files : FileTree} {octets : Octets}
    {above : Location} {name : Octets}
    (h : w.host.files.Replaced files w.host.here w.host.mask p.output octets above name) :
    files.readText w.host.here (c.readingOf r) =
        w.host.files.readText w.host.here (c.readingOf r) ∧
      ∀ k, name ≠ scratchName k := by
  obtain ⟨-, hinput, houtput, hdiffers, -⟩ := prepare_eq_ok hprepare
  rw [hinput, houtput] at hdiffers
  rw [houtput] at h
  obtain ⟨front, kind, old, n, hrenamed, hin, hout⟩ := exists_renamed habs hnone hdiffers
  obtain rfl := name_of_place hout h.slashless h.isName h.place_eq
  refine ⟨?_, hrenamed.ne_scratchName⟩
  obtain ⟨node, hnode⟩ := source_of_prepared habs hprepare
  obtain ⟨hcheck, l, hwalk, -⟩ := node_eq_ok_iff.1 hnode
  have hfind := find_eq_ok_iff.2 ⟨hcheck, hwalk⟩
  obtain ⟨above', rfl⟩ := hlinks.exists_end hin hfind
  have hagree := h.withFile.agree_on_trail hlinks h.not_directory hfind fun heq => by
    obtain ⟨-, hname⟩ := List.append_inj' heq rfl
    exact hrenamed.ne (by simpa using hname.symm)
  rw [readingOf_eq_inputOf (.inl habs)]
  unfold readText
  rw [read_of_agree hagree]

/-- Converting a file again changes nothing. Transformers are functions of what they are asked,
there are no links, no destination is asked for and no linter, and the machine does not refuse to
set permission bits, which only the second conversion may have to do. If a conversion succeeds, the
same conversion after it ends in the same way, with the same run but for its mark, and at every
location there is then what there was before. -/
theorem convert_again (c : Converter τ) (id id' : RunId) (r : ConversionRequest) (w : World τ)
    (habs : c.workingDir.isAbsolute = true) (hnone : r.output = none)
    (hlint : r.config.eslintFix = false) (hlinks : w.host.files.Linkless)
    (hfunctional : c.Functional r.config.toolchain) (hpermit : c.refusals .permit = .none)
    {summary : Summary} (h : (c.convert id r w).1.result = .ok summary) :
    (c.convert id' r (c.convert id r w).2).1 = (c.convert id r w).1.marked id' ∧
    ∃ files, (c.convert id' r (c.convert id r w).2).2 =
        { (c.convert id r w).2 with host := { (c.convert id r w).2.host with files } } ∧
      ∀ l, files.get? l = (c.convert id r w).2.host.files.get? l := by
  obtain ⟨p, text, u, hprepare, houtcome, hwrite⟩ := exists_written h
  have hstays : (c.runOf id r w p).2 = w := by rw [hfunctional.runOf_eq id id w w p]
  have hnolinter : p.eslint = none := by
    obtain ⟨-, -, -, -, hlinter, -⟩ := prepare_eq_ok hprepare
    simpa [findLinter, hlint] using hlinter.symm
  have hfirst := convert_of_written hprepare houtcome hwrite
  rw [hstays] at hwrite
  obtain ⟨files, hfiles, rfl⟩ := writeResult_eq_ok_iff.1 hwrite
  obtain ⟨above, name, hreplaced⟩ := replaceFile_of_ok hfiles
  obtain ⟨hread, hname⟩ := source_and_place_of_written habs hnone hlinks hprepare hreplaced
  obtain ⟨files', hfiles', hsame⟩ := replaceFile_again hlinks hpermit
    (fun k n hplace => by
      rw [hreplaced.place_eq] at hplace
      exact hname n (Prod.mk.inj (Except.ok.inj hplace)).2) hfiles
  -- the second run
  have hagain := prepare_congr (v := { w with host := { w.host with files } }) hlint hread
  have hrun := hfunctional.runOf_eq id id' w { w with host := { w.host with files } } p
  have houtcome' : (c.runOf id' r { w with host := { w.host with files } } p).1.outcome =
      .ok text := by
    rw [hrun, ← houtcome]
    rfl
  have hwrite' : c.writeResult p.output text
      (c.runOf id' r { w with host := { w.host with files } } p).2 =
        (.ok (), { w with host := { w.host with files := files' } }) := by
    rw [hrun]
    exact writeResult_eq_ok_iff.2 ⟨files', hfiles', rfl⟩
  have hsecond := convert_of_written (hagain.trans hprepare) houtcome' hwrite'
  rw [hfirst]
  simp only [hnolinter, lintIf] at hsecond ⊢
  rw [hsecond, hrun]
  exact ⟨rfl, files', rfl, hsame⟩

/-- A file alone in its directory. -/
def loneWorld : World Unit where
  host := { files := ⟨[([Utf8.encode "a.cjsx"], .file (Utf8.encode "x") 0o640)]⟩ }
  memory := ()

/-- The destination is new the first time, and is kept as it is the second time. -/
theorem lone_file_converted_twice :
    ((answering "y").convert .zero { input := .ofString "a.cjsx" }
        loneWorld).1.result.toOption.isSome = true ∧
      ((answering "y").convert ⟨1⟩ { input := .ofString "a.cjsx" }
        ((answering "y").convert .zero { input := .ofString "a.cjsx" } loneWorld).2).1 =
      ((answering "y").convert .zero { input := .ofString "a.cjsx" } loneWorld).1.marked ⟨1⟩ := by
  have hsucceeds : ((answering "y").convert .zero { input := .ofString "a.cjsx" }
      loneWorld).1.result.toOption.isSome = true := by
    rw [convert_of_derived (q := .ofString "/a.jsx") .zero loneWorld rfl (by decide +kernel)]
    decide +kernel
  refine ⟨hsucceeds, ?_⟩
  cases hresult : ((answering "y").convert .zero { input := .ofString "a.cjsx" }
      loneWorld).1.result with
  | error failure =>
    rw [hresult] at hsucceeds
    cases hsucceeds
  | ok summary =>
    have hlinks : loneWorld.host.files.Linkless := linkless_of_entries (by simp [loneWorld])
    exact (convert_again (answering "y") .zero ⟨1⟩ { input := .ofString "a.cjsx" } loneWorld
      (by decide +kernel) rfl rfl hlinks ⟨fun _ _ => .ok "y", fun h s q w => by cases s <;> rfl⟩ rfl
      hresult).1

end Converter
end CjsxConversion
