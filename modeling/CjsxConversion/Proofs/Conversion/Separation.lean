import CjsxConversion.Proofs.Conversion.FaultOrder
import CjsxConversion.Proofs.Flag.Meaning

/-!
# Options stay with their tools

Two of the stages take options, each those of its own set of flags. The values are kept in one
record for both sets, and the sets may share keys, so it has to be shown that what is set for one
tool does not reach the other, nor any stage that takes no options.

Two conversions are compared that differ in the values of flags only. What their stages
receive is read off the requests that they note.

Main results:
* `Settles.filter_eq`: two ways along the stages whose options for the dialect are the same ask the
  same until formatting.
* `Settles.request_eq`: every request is what its stage asks of some text.
* `options_do_not_leak`: values that agree for the flags of one set make no difference to what is
  asked on behalf of that set.
-/

namespace CjsxConversion

namespace Pipeline

variable {σ : Type} {t : ByStage (Transformer σ)} {o o' : StageOptions} {c : RunContext}
  {ss last : List Stage} {text : String} {w v v' : σ} {askings askings' : List Asking}
  {outcome outcome' : Except StageFailure String}

/-- A stage that fails is the last that is asked. -/
theorem Settles.of_error {s : Stage} {rest : List Stage} {fault : ToolFault} {u : σ}
    (answer : t.get s (asked o c text s) w = (.error fault, u))
    (h : Settles t o c (s :: rest) text w askings v outcome) :
    askings = [⟨s, asked o c text s⟩] := by
  cases outcome with
  | ok result =>
    cases h with
    | cons answer' passes => exact nomatch answer.symm.trans answer'
  | error failure =>
    cases h with
    | here answer' => rfl
    | later answer' halts => exact nomatch answer.symm.trans answer'

/-- A stage that succeeds is asked, and then the rest with its result. -/
theorem Settles.of_ok {s : Stage} {rest : List Stage} {out : String} {u : σ}
    (answer : t.get s (asked o c text s) w = (.ok out, u))
    (h : Settles t o c (s :: rest) text w askings v outcome) :
    ∃ later, askings = ⟨s, asked o c text s⟩ :: later ∧
      Settles t o c rest out u later v outcome := by
  cases outcome with
  | ok result =>
    cases h with
    | cons answer' passes =>
      rw [answer] at answer'
      cases answer'
      exact ⟨_, rfl, passes⟩
  | error failure =>
    cases h with
    | here answer' => exact nomatch answer.symm.trans answer'
    | later answer' halts =>
      rw [answer] at answer'
      cases answer'
      exact ⟨_, rfl, halts⟩

/-- Every request is what its stage asks of some text. -/
theorem Settles.request_eq (h : Settles t o c ss text w askings v outcome) :
    ∀ a ∈ askings, ∃ text, a.request = asked o c text a.stage := by
  induction ss generalizing text w askings with
  | nil =>
    have hnone := h.stages_in_order
    simp only [List.prefix_nil, List.map_eq_nil_iff] at hnone
    simp [hnone]
  | cons s rest ih =>
    cases answer : t.get s (asked o c text s) w with
    | mk result u =>
      cases result with
      | error fault =>
        rw [h.of_error answer]
        simpa using ⟨text, rfl⟩
      | ok out =>
        obtain ⟨later, rfl, hlater⟩ := h.of_ok answer
        rintro a (_ | ⟨_, ha⟩)
        · exact ⟨text, rfl⟩
        · exact ih hlater a ha

/-- A stage other than formatting asks the same with the same options for the dialect. -/
theorem asked_of_ne_format (hdialect : o'.dialect = o.dialect) {s : Stage} (hs : s ≠ .format)
    (c : RunContext) (text : String) : asked o' c text s = asked o c text s := by
  cases s with
  | macroStrip => rfl
  | dialectConvert => rw [asked, asked, hdialect]
  | elementSyntax => rfl
  | format => exact absurd rfl hs

/-- With the same options for the dialect, the stages ask the same until formatting. -/
theorem Settles.filter_eq (hdialect : o'.dialect = o.dialect) (hss : ∀ s ∈ ss, s ≠ .format)
    (hlast : ∀ s ∈ last, s = .format)
    (h : Settles t o c (ss ++ last) text w askings v outcome)
    (h' : Settles t o' c (ss ++ last) text w askings' v' outcome') :
    askings'.filter (fun a => a.stage ≠ .format) = askings.filter (fun a => a.stage ≠ .format) := by
  induction ss generalizing text w askings askings' with
  | nil =>
    -- what is left is formatting, which is not compared
    have hnone : ∀ {as : List Asking}, as.map Asking.stage <+: last →
        as.filter (fun a => a.stage ≠ .format) = [] := by
      intro as has
      refine List.filter_eq_nil_iff.2 fun a ha => ?_
      simp [hlast a.stage (has.subset (List.mem_map_of_mem ha))]
    rw [hnone h.stages_in_order, hnone h'.stages_in_order]
  | cons s ss ih =>
    have hasked := asked_of_ne_format hdialect (hss s List.mem_cons_self) c text
    cases answer : t.get s (asked o c text s) w with
    | mk result u =>
      have answer' := answer
      rw [← hasked] at answer'
      cases result with
      | error fault => rw [h.of_error answer, h'.of_error answer', hasked]
      | ok out =>
        obtain ⟨later, rfl, hlater⟩ := h.of_ok answer
        obtain ⟨later', rfl, hlater'⟩ := h'.of_ok answer'
        have hrest := ih (fun q hq => hss q (List.mem_cons_of_mem s hq)) hlater hlater'
        rw [hasked, List.filter_cons, List.filter_cons, hrest]

end Pipeline

/-- Settings that agree under the keys of a set of flags resolve alike. -/
theorem FlagSet.resolve_congr {s : FlagSet} {settings other : Settings}
    (h : ∀ f ∈ s.flags, other.get? f.settingKey = settings.get? f.settingKey) :
    s.resolve other = s.resolve settings := by
  unfold resolve
  rw [foldlM_resolveStep_congr h fun f hf => hf]

/-- The request with other values of flags. -/
def ConversionRequest.withOptions (r : ConversionRequest) (options : Settings) :
    ConversionRequest :=
  { r with config := { r.config with options } }

namespace Converter

variable {τ : Type} {c : Converter τ} {id : RunId} {r : ConversionRequest} {w : World τ}
  {other : Settings} {o o' : StageOptions}

/-- What the stages of a conversion are asked. -/
def requests (c : Converter τ) (id : RunId) (r : ConversionRequest) (w : World τ) : List Asking :=
  (c.noted.convert id r (w.noted [])).2.memory.2

/-- A request that is refused asks nothing. -/
theorem requests_of_refused {failure : Failure} (h : c.prepare r w.host = .error failure) :
    c.requests id r w = [] := by
  obtain ⟨askings, hnoted, hnone, -⟩ := c.convert_noted id r w []
  rw [requests, hnoted, hnone failure h]
  rfl

/-- What the stages of a prepared request are asked is settled. -/
theorem settles_requests (id : RunId) {p : Prepared} (h : c.prepare r w.host = .ok p) :
    Pipeline.Settles (c.transformers r.config.toolchain w.host) p.options
      ⟨id, p.input, p.output⟩ (Pipeline.needed r.config.skipFormat) p.source.text w
      (c.requests id r w) (c.runOf id r w p).2 (c.runOf id r w p).1.outcome := by
  obtain ⟨askings, hnoted, -, hsettles⟩ := c.convert_noted id r w []
  have hrequests : c.requests id r w = askings := by
    rw [requests, hnoted]
    rfl
  rw [hrequests]
  exact hsettles p h

/-- Settings that resolve make no other difference to what is known of a request. -/
theorem prepare_withOptions (h : StageOptions.resolve c.catalog r.config.options = .ok o)
    (h' : StageOptions.resolve c.catalog other = .ok o') :
    c.prepare (r.withOptions other) w.host =
      (c.prepare r w.host).map fun p => { p with options := o' } := by
  have hrest : c.prepareRest (r.withOptions other) w = c.prepareRest r w := rfl
  have hother : StageOptions.resolve c.catalog (r.withOptions other).config.options = .ok o' := h'
  rw [prepare_eq, prepare_eq, hrest, hother, h]
  cases c.prepareRest r w <;> rfl

/-- The stages before formatting, and formatting if it is not left out. -/
theorem needed_eq_append (skipFormat : Bool) :
    ∃ last, Pipeline.needed skipFormat =
      [.macroStrip, .dialectConvert, .elementSyntax] ++ last ∧ ∀ s ∈ last, s = .format := by
  cases skipFormat with
  | true => exact ⟨[], rfl, by simp⟩
  | false => exact ⟨[.format], rfl, by simp⟩

/-- Options do not leak between the tools. Two conversions differ in the values of flags only,
and the values of both fit. If they agree for all flags of the dialect, the stages other than
formatting receive the same requests in both. If they agree for all flags of the formatter, what
formatting receives in one and in the other has the same options. -/
theorem options_do_not_leak (c : Converter τ) (id : RunId) (r : ConversionRequest) (w : World τ)
    (other : Settings) {o o' : StageOptions}
    (h : StageOptions.resolve c.catalog r.config.options = .ok o)
    (h' : StageOptions.resolve c.catalog other = .ok o') :
    ((∀ f ∈ c.catalog.dialect.flags,
        other.get? f.settingKey = r.config.options.get? f.settingKey) →
      (c.requests id (r.withOptions other) w).filter (fun a => a.stage ≠ .format) =
        (c.requests id r w).filter (fun a => a.stage ≠ .format)) ∧
    ((∀ f ∈ c.catalog.format.flags,
        other.get? f.settingKey = r.config.options.get? f.settingKey) →
      ∀ a ∈ c.requests id r w, ∀ b ∈ c.requests id (r.withOptions other) w,
        a.stage = .format → b.stage = .format → b.request.options = a.request.options) := by
  have hother := c.prepare_withOptions (w := w) h h'
  cases hprepare : c.prepare r w.host with
  | error failure =>
    rw [hprepare] at hother
    rw [requests_of_refused hprepare, requests_of_refused hother]
    exact ⟨fun _ => rfl, fun _ a ha => nomatch ha⟩
  | ok p =>
    rw [hprepare] at hother
    have hsettles := settles_requests id hprepare
    have hsettles' := settles_requests id hother
    obtain ⟨hdialect, hformat⟩ := StageOptions.resolve_eq_ok_iff.1 h
    obtain ⟨hdialect', hformat'⟩ := StageOptions.resolve_eq_ok_iff.1 h'
    have hoptions : p.options = o := by
      have hresolved := (prepare_eq_ok hprepare).1
      rw [h] at hresolved
      exact (Except.ok.inj hresolved).symm
    rw [hoptions] at hsettles
    constructor
    · intro hagree
      rw [FlagSet.resolve_congr hagree, hdialect] at hdialect'
      obtain ⟨last, hneeded, hlast⟩ := needed_eq_append r.config.skipFormat
      rw [hneeded] at hsettles
      have hneeded' : Pipeline.needed (r.withOptions other).config.skipFormat = _ := hneeded
      rw [hneeded'] at hsettles'
      exact hsettles.filter_eq (Except.ok.inj hdialect').symm (by simp) hlast hsettles'
    · intro hagree a ha b hb hastage hbstage
      rw [FlagSet.resolve_congr hagree, hformat] at hformat'
      obtain ⟨text, harequest⟩ := hsettles.request_eq a ha
      obtain ⟨text', hbrequest⟩ := hsettles'.request_eq b hb
      rw [harequest, hbrequest, hastage, hbstage]
      exact (Except.ok.inj hformat').symm

/-- Two tools that share an option, and have one more each. -/
def sharingCatalog : Catalog where
  dialect := ⟨"dialect", "1", [⟨"--loose", .toggle, none, "", none, none⟩,
    ⟨"--width", .integer, none, "", none, none⟩], by decide +kernel⟩
  format := ⟨"format", "1", [⟨"--width", .integer, none, "", none, none⟩,
    ⟨"--tabs", .toggle, none, "", none, none⟩], by decide +kernel⟩

/-- A converter for tools that share an option, whose stages answer by themselves. -/
def sharing : Converter Unit := { answering "y" with catalog := sharingCatalog }

/-- A request with all options of both tools. -/
def optionedRequest : ConversionRequest :=
  besideRequest.withOptions
    (.ofList [("loose", .bool true), ("tabs", .bool true), ("width", .int 4)])

/-- What only the formatter knows is not seen before formatting, and what only the dialect knows is
not seen there. -/
theorem options_kept_apart :
    (sharing.requests .zero optionedRequest sampleWorld).map Asking.stage = Stage.all ∧
      (sharing.requests .zero (optionedRequest.withOptions
          (.ofList [("loose", .bool true), ("width", .int 4)])) sampleWorld).filter
          (fun a => a.stage ≠ .format) =
        (sharing.requests .zero optionedRequest sampleWorld).filter (fun a => a.stage ≠ .format) ∧
      ∀ a ∈ sharing.requests .zero optionedRequest sampleWorld,
        ∀ b ∈ sharing.requests .zero (optionedRequest.withOptions
          (.ofList [("tabs", .bool true), ("width", .int 4)])) sampleWorld,
          a.stage = .format → b.stage = .format → b.request.options = a.request.options := by
  refine ⟨by decide +kernel, ?_, ?_⟩
  · refine (options_do_not_leak sharing .zero optionedRequest sampleWorld _ rfl rfl).1 ?_
    decide +kernel
  · refine (options_do_not_leak sharing .zero optionedRequest sampleWorld _ rfl rfl).2 ?_
    decide +kernel

end Converter
end CjsxConversion
