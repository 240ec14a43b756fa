import CjsxConversion.Proofs.Flag.JsonRoundTrip
import CjsxConversion.Tool.Json

/-!
# Configurations survive being written as JSON

What is written of a tool, of a toolchain or of a configuration is read as just that: all parts are
written, also those that have their usual values, and each is read into its own place.

Main results:
* `InputRoute.reads`: the way to a tool is read as itself, a scratch file with any suffix.
* `Toolchain.reads`: so are the tools of all stages.
* `Configuration.reads`: so is a configuration.
* `decode_encode`: the texts of configurations and of sets of flags are read as what they were
  written from.
-/

namespace CjsxConversion

open Json
open Decoder.Record

/-! ### Tools -/

theorem OutputRoute.reads (m : OutputRoute) : decoder.Reads 0 m.toJson m := by
  cases m with
  | stdout => exact ⟨trivial, fun _ _ _ => rfl⟩
  | inPlace => exact ⟨trivial, fun _ _ _ => rfl⟩

theorem LaunchRoute.reads (m : LaunchRoute) : decoder.Reads 0 m.toJson m := by
  cases m with
  | direct => exact ⟨trivial, fun _ _ _ => rfl⟩
  | shell => exact ⟨trivial, fun _ _ _ => rfl⟩

/-- The way to a tool is read as itself, a scratch file with any suffix. -/
theorem InputRoute.reads (m : InputRoute) : decoder.Reads 2 m.toJson m := by
  cases m with
  | stdin => exact ⟨trivial, fun _ _ _ => rfl⟩
  | tempFile suffix =>
    have hfills : layout.Fills 0 none [("suffix", .str suffix)] (some suffix) :=
      Fills.slot rfl rfl (Decoder.string_reads suffix) (.done _)
    have hsuffix := record_reads hfills rfl
    have hfile : tempFileDecoder.Reads 1 (.obj [("suffix", .str suffix)]) (.tempFile suffix) := by
      refine ⟨hsuffix.fits, fun form depth hroom => ?_⟩
      have hread := congrArg (Except.map fun s => tempFile (s.getD ToolSetup.usualSuffix))
        (hsuffix.decode_eq form depth hroom)
      cases form <;> exact hread
    exact Decoder.choice_reads rfl hfile

/-- A tool is read as itself. -/
theorem ToolSetup.reads (t : ToolSetup) : decoder.Reads 3 t.toJson t := by
  have hargs : (Decoder.list Decoder.string).Reads 1 (.ofStrings t.args) t.args :=
    Decoder.list_reads fun a _ => Decoder.string_reads a
  have hfills : layout.Fills 2 {} [("program", .str t.program), ("args", .ofStrings t.args),
      ("input", t.input.toJson), ("output", t.output.toJson), ("shell", t.shell.toJson),
      ("forward_options", .bool t.forwardOptions)] ⟨some t.program, some t.args, some t.input,
        some t.output, some t.shell, some t.forwardOptions⟩ := by
    refine Fills.slot rfl rfl ((Decoder.string_reads _).mono (by omega)) ?_
    refine Fills.slot rfl rfl (hargs.mono (by omega)) ?_
    refine Fills.slot rfl rfl t.input.reads ?_
    refine Fills.slot rfl rfl (t.output.reads.mono (by omega)) ?_
    refine Fills.slot rfl rfl (t.shell.reads.mono (by omega)) ?_
    exact Fills.slot rfl rfl ((Decoder.bool_reads _).mono (by omega)) (.done _)
  exact (record_reads hfills rfl).map ofSlots

/-! ### Toolchains -/

namespace Toolchain

theorem find?_stage (s : Stage) : layout.fields.find? (fun f => f.name == s.name) =
    some (Decoder.slot s.name false (fun c => c.tools.get s)
      (fun c v => { c with tools := c.tools.set s (some v) }) ToolSetup.decoder) := by
  cases s <;> rfl

/-- The tools of all stages are read as themselves, with the linter. -/
theorem reads (c : Toolchain) : decoder.Reads 4 c.toJson c := by
  have hfills : layout.Fills 3 {} (Stage.all.map (fun s => (s.name, (c.tools.get s).toJson))
      ++ [("eslint", .str c.eslint)]) ⟨c.tools.map some, some c.eslint⟩ := by
    refine Fills.slot (find?_stage .macroStrip) rfl (ToolSetup.reads _) ?_
    refine Fills.slot (find?_stage .dialectConvert) rfl (ToolSetup.reads _) ?_
    refine Fills.slot (find?_stage .elementSyntax) rfl (ToolSetup.reads _) ?_
    refine Fills.slot (find?_stage .format) rfl (ToolSetup.reads _) ?_
    exact Fills.slot rfl rfl ((Decoder.string_reads _).mono (by omega)) (.done _)
  exact (record_reads hfills rfl).map ofSlots

end Toolchain

/-! ### Configurations -/

namespace Configuration

/-- A configuration is read as itself. -/
theorem reads (c : Configuration) : decoder.Reads 5 c.toJson c := by
  have hfills : layout.Fills 4 {} [("options", c.options.toJson),
      ("skip_format", .bool c.skipFormat), ("eslint_fix", .bool c.eslintFix),
      ("toolchain", c.toolchain.toJson)] ⟨some c.options, some c.skipFormat, some c.eslintFix,
        some c.toolchain⟩ := by
    refine Fills.slot rfl rfl (c.options.reads.mono (by omega)) ?_
    refine Fills.slot rfl rfl ((Decoder.bool_reads _).mono (by omega)) ?_
    refine Fills.slot rfl rfl ((Decoder.bool_reads _).mono (by omega)) ?_
    exact Fills.slot rfl rfl c.toolchain.reads (.done _)
  exact (record_reads hfills rfl).map ofSlots

end Configuration

/-- Texts are read as what they were written from: a configuration with any settings, switches
and tools, wherever its text comes from, and any set of flags. -/
theorem decode_encode :
    (∀ (origin : Path) (c : Configuration), Configuration.ofText origin c.toJson.render = .ok c) ∧
      ∀ s : FlagSet, (Document.ofText s.toJson.render).decode FlagSet.decoder = .ok s := by
  refine ⟨fun origin c => ?_, fun s => s.reads.decode_render (by omega)⟩
  have hread : Configuration.ofText? c.toJson.render = .ok c :=
    c.reads.decode_render (by omega)
  rw [Configuration.ofText, hread]

end CjsxConversion
