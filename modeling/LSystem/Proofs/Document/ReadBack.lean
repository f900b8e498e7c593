import LSystem.Document.VectorReader
import LSystem.Proofs.Document.Snapshot
import LSystem.Proofs.Json.ReadBack
set_option autoImplicit false

/-! # Documents lose nothing

A document is read back from its text in two steps: the text as JSON, and the JSON member by member, each by
its key. The first step returns the numerals as they were written, the second makes floats of them, and any
reader of numbers will do for it as long as it rounds correctly. So a document whose floats are finite is
recovered exactly, down to the sign of a zero, and no two of them have the same text. -/

namespace LSystem

open Json (Numeral)
open Json.Numeral (CorrectlyRounded)

/-! ## Finite documents -/

/-- Both coordinates are finite. -/
def Vec.isFinite (v : Point) : Bool := Binary64.isFinite v.x && Binary64.isFinite v.y

/-- Both corners are finite. -/
def Bounds.isFinite (b : Bounds Float) : Bool := b.min.isFinite && b.max.isFinite

/-- All floats that are told of one generation are finite. -/
def FrameDocument.isFinite (f : FrameDocument) : Bool :=
  f.bounds.isFinite && f.points.all Vec.isFinite

/-- All floats of a document are finite. -/
def Document.isFinite : Document → Bool
  | .geometry d => Binary64.isFinite d.angle && d.frame.isFinite
  | .trace d => Binary64.isFinite d.angle && d.frames.all FrameDocument.isFinite

/-! ## Reading -/

namespace Json

/-- The whole number that a value is. -/
def nat? : Json → Option Nat
  | .number ⟨false, whole, [], none⟩ => some (Nat.ofDigitChars 10 whole 0)
  | _ => none

/-- The string that a value is. -/
def text? : Json → Option String
  | .string s => some s
  | _ => none

/-- The items of an array. -/
def items? : Json → Option (List Json)
  | .array js => some js
  | _ => none

/-- The value of a member of an object, whose key must not occur twice. -/
def get? (key : String) : Json → Option Json
  | .object ms => Vec.only? key ms
  | _ => none

section

variable (toFloat? : Numeral → Option Float)

/-- The float that a value is. -/
def float? : Json → Option Float
  | .number n => toFloat? n
  | _ => none

/-- A point with its coordinates. -/
def point? (j : Json) : Option Point := do
  return ⟨← float? toFloat? (← j.get? "x"), ← float? toFloat? (← j.get? "y")⟩

/-- A box with its corners. -/
def bounds? (j : Json) : Option (Bounds Float) := do
  return ⟨← point? toFloat? (← j.get? "min"), ← point? toFloat? (← j.get? "max")⟩

/-- What is told of one generation, among other members or alone. -/
def frame? (j : Json) : Option FrameDocument := do
  return {
    generation := ← (← j.get? "generation").nat?
    segments := ← (← j.get? "segments").nat?
    bounds := ← bounds? toFloat? (← j.get? "bounds")
    points := ← (← (← j.get? "points").items?).mapM (point? toFloat?) }

/-- A drawing document. -/
def drawing? (j : Json) : Option GeometryDocument := do
  return {
    system := ← (← j.get? "system").text?
    angle := ← float? toFloat? (← j.get? "theta")
    symbols := ← (← j.get? "symbols").nat?
    frame := ← frame? toFloat? j
    generated := ← (← j.get? "generated").text? }

/-- A trace document. -/
def trace? (j : Json) : Option TraceDocument := do
  return {
    system := ← (← j.get? "system").text?
    angle := ← float? toFloat? (← j.get? "theta")
    frames := ← (← (← j.get? "frames").items?).mapM (frame? toFloat?)
    generated := ← (← j.get? "generated").text? }

end

end Json

/-- A text as a document of either kind: one with a number of symbols is a drawing document. -/
def Document.ofText? (toFloat? : Numeral → Option Float) (text : String) : Option Document := do
  let j ← Json.Reader.read? text
  if (j.get? "symbols").isSome then (j.drawing? toFloat?).map .geometry
  else (j.trace? toFloat?).map .trace

/-! ## Values -/

namespace Json

theorem isWellFormed_nat (n : Nat) : (nat n).IsWellFormed := .number (Numeral.isWellFormed_ofNat n)

@[simp] theorem nat?_nat (n : Nat) : (nat n).nat? = some n :=
  congrArg some Nat.ofDigitChars_ten_toDigits

theorem isWellFormed_float (x : Float) : (float x).IsWellFormed := by
  by_cases hx : Binary64.isFinite x = true
  · obtain ⟨n, hn, hwell, -⟩ := Numeral.exists_ofFloat? hx
    rw [float, hn]
    exact .number hwell
  · rw [float, Numeral.ofFloat?_eq_none (Bool.eq_false_of_not_eq_true hx)]
    exact .null

theorem float?_float {toFloat? : Numeral → Option Float} (hround : CorrectlyRounded toFloat?)
    {x : Float} (hx : Binary64.isFinite x = true) : (float x).float? toFloat? = some x := by
  obtain ⟨n, hn, hwell, hsign, hnear⟩ := Numeral.exists_ofFloat? hx
  rw [float, hn]
  exact hround n x hwell hx hsign.symm hnear

theorem mapM_map {α : Type} {f : α → Json} {g : Json → Option α} {as : List α}
    (h : ∀ a ∈ as, g (f a) = some a) : (as.map f).mapM g = some as := by
  induction as with
  | nil => rfl
  | cons a as ih =>
    rw [List.map_cons, List.mapM_cons, h a List.mem_cons_self,
      ih fun b hb => h b (List.mem_cons_of_mem a hb)]
    rfl

/-- The members of a drawing document beside those of its frame. -/
theorem get?_geometry (d : GeometryDocument) :
    d.toJson.get? "system" = some (.string d.system) ∧ d.toJson.get? "theta" = some (float d.angle) ∧
    d.toJson.get? "symbols" = some (nat d.symbols) ∧
    d.toJson.get? "generated" = some (.string d.generated) := by
  refine ⟨?_, ?_, ?_, ?_⟩ <;> simp [GeometryDocument.toJson, FrameDocument.members, get?, Vec.only?]

/-- The members of a trace document. By `symbols` the two kinds are told apart. -/
theorem get?_trace (d : TraceDocument) :
    d.toJson.get? "system" = some (.string d.system) ∧ d.toJson.get? "theta" = some (float d.angle) ∧
    d.toJson.get? "symbols" = none ∧
    d.toJson.get? "frames" = some (.array (d.frames.map fun f => .object f.members)) ∧
    d.toJson.get? "generated" = some (.string d.generated) := by
  refine ⟨?_, ?_, ?_, ?_, ?_⟩ <;> simp [TraceDocument.toJson, get?, Vec.only?]

section

variable {toFloat? : Numeral → Option Float} (hround : CorrectlyRounded toFloat?)
include hround

theorem point?_toJson {v : Point} (hv : v.isFinite = true) : v.toJson.point? toFloat? = some v := by
  obtain ⟨hx, hy⟩ := Bool.and_eq_true_iff.1 hv
  have hgetx : v.toJson.get? "x" = some (float v.x) := by simp [Vec.toJson, get?, Vec.only?]
  have hgety : v.toJson.get? "y" = some (float v.y) := by simp [Vec.toJson, get?, Vec.only?]
  simp [point?, hgetx, hgety, float?_float hround hx, float?_float hround hy]

theorem bounds?_toJson {b : Bounds Float} (hb : b.isFinite = true) :
    b.toJson.bounds? toFloat? = some b := by
  obtain ⟨hmin, hmax⟩ := Bool.and_eq_true_iff.1 hb
  have hgetmin : b.toJson.get? "min" = some b.min.toJson := by simp [Bounds.toJson, get?, Vec.only?]
  have hgetmax : b.toJson.get? "max" = some b.max.toJson := by simp [Bounds.toJson, get?, Vec.only?]
  simp [bounds?, hgetmin, hgetmax, point?_toJson hround hmin, point?_toJson hround hmax]

/-- The members that tell of one generation, wherever they stand. -/
theorem frame?_of_get? {f : FrameDocument} (hf : f.isFinite = true) {j : Json}
    (hgeneration : j.get? "generation" = some (nat f.generation))
    (hsegments : j.get? "segments" = some (nat f.segments))
    (hbounds : j.get? "bounds" = some f.bounds.toJson)
    (hpoints : j.get? "points" = some (.array (f.points.map Vec.toJson))) :
    j.frame? toFloat? = some f := by
  obtain ⟨hfinite, hall⟩ := Bool.and_eq_true_iff.1 hf
  have hmap : (f.points.map Vec.toJson).mapM (point? toFloat?) = some f.points :=
    mapM_map fun p hp => point?_toJson hround (List.all_eq_true.1 hall p hp)
  simp [frame?, hgeneration, hsegments, hbounds, hpoints, items?, bounds?_toJson hround hfinite, hmap]

theorem frame?_object {f : FrameDocument} (hf : f.isFinite = true) :
    (Json.object f.members).frame? toFloat? = some f := by
  apply frame?_of_get? hround hf <;> simp [FrameDocument.members, get?, Vec.only?]

theorem drawing?_toJson {d : GeometryDocument} (hd : (Document.geometry d).isFinite = true) :
    d.toJson.drawing? toFloat? = some d := by
  obtain ⟨hangle, hframe⟩ := Bool.and_eq_true_iff.1 hd
  obtain ⟨hsystem, htheta, hsymbols, hgenerated⟩ := get?_geometry d
  have hread : d.toJson.frame? toFloat? = some d.frame := by
    apply frame?_of_get? hround hframe <;>
      simp [GeometryDocument.toJson, FrameDocument.members, get?, Vec.only?]
  simp [drawing?, hsystem, htheta, hsymbols, hgenerated, hread, text?, float?_float hround hangle]

theorem trace?_toJson {d : TraceDocument} (hd : (Document.trace d).isFinite = true) :
    d.toJson.trace? toFloat? = some d := by
  obtain ⟨hangle, hall⟩ := Bool.and_eq_true_iff.1 hd
  obtain ⟨hsystem, htheta, -, hframes, hgenerated⟩ := get?_trace d
  have hmap : (d.frames.map fun f => .object f.members).mapM (frame? toFloat?) = some d.frames :=
    mapM_map fun f hf => frame?_object hround (List.all_eq_true.1 hall f hf)
  simp [trace?, hsystem, htheta, hframes, hgenerated, items?, text?, float?_float hround hangle, hmap]

end

/-! ## Documents -/

theorem isWellFormed_vec (v : Point) : v.toJson.IsWellFormed := by
  refine .object fun m hm => ?_
  fin_cases hm <;> exact isWellFormed_float _

theorem isWellFormed_bounds (b : Bounds Float) : b.toJson.IsWellFormed := by
  refine .object fun m hm => ?_
  fin_cases hm <;> exact isWellFormed_vec _

theorem isWellFormed_members (f : FrameDocument) : ∀ m ∈ f.members, m.2.IsWellFormed := by
  have hpoints : (Json.array (f.points.map Vec.toJson)).IsWellFormed := by
    refine .array fun j hj => ?_
    obtain ⟨p, -, rfl⟩ := List.mem_map.1 hj
    exact isWellFormed_vec p
  simp [FrameDocument.members, isWellFormed_nat, isWellFormed_bounds, hpoints]

end Json

theorem GeometryDocument.isWellFormed_toJson (d : GeometryDocument) : d.toJson.IsWellFormed := by
  refine .object fun m hm => ?_
  rcases List.mem_append.1 hm with hm | hlast
  · rcases List.mem_append.1 hm with hfirst | hframe
    · fin_cases hfirst
      · exact .string _
      · exact Json.isWellFormed_float _
      · exact Json.isWellFormed_nat _
    · exact Json.isWellFormed_members d.frame m hframe
  · obtain rfl := List.mem_singleton.1 hlast
    exact .string _

theorem TraceDocument.isWellFormed_toJson (d : TraceDocument) : d.toJson.IsWellFormed := by
  refine .object fun m hm => ?_
  fin_cases hm
  · exact .string _
  · exact Json.isWellFormed_float _
  · refine .array fun j hj => ?_
    obtain ⟨f, -, rfl⟩ := List.mem_map.1 hj
    exact .object (Json.isWellFormed_members f)
  · exact .string _

theorem GeometryDocument.read?_text (d : GeometryDocument) :
    Json.Reader.read? d.text = some d.toJson :=
  Json.Reader.read?_spread d.isWellFormed_toJson

theorem TraceDocument.read?_text (d : TraceDocument) : Json.Reader.read? d.text = some d.toJson :=
  Json.Reader.read?_spread d.isWellFormed_toJson

namespace Document

/-- A text is a JSON object, whatever its floats. -/
theorem exists_read?_text (d : Document) :
    ∃ members, Json.Reader.read? d.text = some (.object members) := by
  cases d with
  | geometry d => exact ⟨_, d.read?_text⟩
  | trace d => exact ⟨_, d.read?_text⟩

theorem ofText?_text {toFloat? : Numeral → Option Float} (hround : CorrectlyRounded toFloat?)
    {d : Document} (hd : d.isFinite = true) : ofText? toFloat? d.text = some d := by
  cases d with
  | geometry d =>
    obtain ⟨-, -, hsymbols, -⟩ := Json.get?_geometry d
    simp [ofText?, Document.text, d.read?_text, hsymbols, Json.drawing?_toJson hround hd]
  | trace d =>
    obtain ⟨-, -, hsymbols, -⟩ := Json.get?_trace d
    simp [ofText?, Document.text, d.read?_text, hsymbols, Json.trace?_toJson hround hd]

/-- Two documents with the same text are the same, for any reader recovers both. -/
theorem text_injOn {d d' : Document} (hd : d.isFinite = true) (hd' : d'.isFinite = true)
    (h : d.text = d'.text) : d = d' := by
  have hround := Json.Numeral.correctlyRounded_nearest?
  have hread := ofText?_text hround hd
  rw [h, ofText?_text hround hd'] at hread
  exact (Option.some.inj hread).symm

end Document

/-! ## Points and segments -/

/-- Two points for each segment. -/
def FrameDocument.PairsUp (f : FrameDocument) : Prop := f.points.length = 2 * f.segments

theorem FrameDocument.pairsUp_of_draw {word : Word} {angle : Float} {g : Geometry Float}
    (hg : word.draw angle = .ok g) (generation : Nat) : (FrameDocument.of generation g).PairsUp := by
  have hlength : g.points.length = 2 * word.strokes := Walk.length_points_of_draw_ok hg
  show g.points.length = 2 * (g.points.length / 2)
  omega

/-- A run keeps a drawing, or at first a blank one. -/
theorem GeometryDocument.pairsUp_ofRun {r : Run} {s : System} {drawn : List Nat}
    (h : r.IsRunOf s drawn) (name generated : String) : (ofRun name r generated).frame.PairsUp := by
  by_cases hnil : drawn = []
  · show FrameDocument.PairsUp (.of r.generation r.geometry)
    rw [h.undrawn hnil]
    rfl
  · obtain ⟨k, hk⟩ := Option.ne_none_iff_exists'.1 (mt List.getLast?_eq_none_iff.1 hnil)
    exact FrameDocument.pairsUp_of_draw (h.drawing k hk).2 r.generation

/-- Every frame of a trace is a drawing. -/
theorem Run.exists_draw_of_trace {r : Run} {n : Nat} {frames : List Frame}
    (h : (r.trace n).2 = .ok frames) :
    ∀ f ∈ frames, ∃ (word : Word) (angle : Float), word.draw angle = .ok f.geometry := by
  induction r, n using Run.trace.induct generalizing frames with
  | case1 n r r' e hd =>
    rw [trace_of_error hd] at h
    cases h
  | case2 r r' g hd =>
    rw [trace_zero_of_ok hd] at h
    obtain rfl := Except.ok.inj h
    intro f hf
    obtain rfl := List.mem_singleton.1 hf
    exact ⟨_, _, (eq_of_draw_ok hd).2⟩
  | case3 r r' g hd n last rest hr ih =>
    rw [trace_succ_of_ok hd, hr] at h
    cases rest with
    | error e => cases h
    | ok later =>
      obtain rfl := Except.ok.inj h
      intro f hf
      rcases List.mem_cons.1 hf with rfl | hlater
      · exact ⟨_, _, (eq_of_draw_ok hd).2⟩
      · exact ih (congrArg Prod.snd hr) f hlater

theorem TraceDocument.pairsUp_ofFrames {r : Run} {n : Nat} {frames : List Frame}
    (h : (r.trace n).2 = .ok frames) (name : String) (angle : Float) (generated : String) :
    ∀ f ∈ (ofFrames name angle frames generated).frames, f.PairsUp := by
  intro f hf
  obtain ⟨frame, hframe, rfl⟩ := List.mem_map.1 hf
  obtain ⟨word, angle', hdraw⟩ := Run.exists_draw_of_trace h frame hframe
  exact FrameDocument.pairsUp_of_draw hdraw frame.generation

/-- **Documents lose nothing.** Whatever reads JSON and rounds numbers correctly recovers a finite document
    from its text, and so no two of them share a text. The points of a run or of the frames of a trace come
    in pairs, one for each segment. -/
theorem Document.loses_nothing {toFloat? : Numeral → Option Float}
    (hround : CorrectlyRounded toFloat?) :
    (∀ d : Document, d.isFinite = true →
      (∃ members, Json.Reader.read? d.text = some (.object members)) ∧
      ofText? toFloat? d.text = some d) ∧
    (∀ d d' : Document, d.isFinite = true → d'.isFinite = true → d ≠ d' → d.text ≠ d'.text) ∧
    ∀ (s : System) (ops : List Operation) (name generated : String),
      let r := (Run.start s).afterAll ops
      (GeometryDocument.ofRun name r generated).frame.PairsUp ∧
      ∀ (n : Nat) (frames : List Frame), (r.trace n).2 = .ok frames → ∀ angle,
        ∀ f ∈ (TraceDocument.ofFrames name angle frames generated).frames, f.PairsUp := by
  refine ⟨fun d hd => ⟨d.exists_read?_text, ofText?_text hround hd⟩,
    fun d d' hd hd' hne htext => hne (text_injOn hd hd' htext), fun s ops name generated => ?_⟩
  intro r
  have hrun : r.IsRunOf s ((Run.start s).history ops) := (Run.IsRunOf.start s).afterAll ops
  exact ⟨GeometryDocument.pairsUp_ofRun hrun name generated,
    fun n frames h angle => TraceDocument.pairsUp_ofFrames h name angle generated⟩

/-- A document with a name that needs escapes, a negative zero, the least float and the largest. -/
theorem Document.loses_nothing_extremes :
    let corner : Point := ⟨Float.ofBits 0x8000000000000000, Float.ofBits 1⟩
    let far : Point := ⟨Float.ofBits 0xffefffffffffffff, Float.ofBits 0x3fb999999999999a⟩
    let d : Document := .geometry ⟨"\"tree\" \n\x01\\", Float.ofBits 0x3ff921fb54442d18, 7,
      ⟨1, 1, ⟨corner, far⟩, [corner, far]⟩, "T"⟩
    d.isFinite = true ∧ ofText? Numeral.nearest? d.text = some d := by
  intro corner far d
  have hd : d.isFinite = true := by decide +kernel
  exact ⟨hd, ((loses_nothing Json.Numeral.correctlyRounded_nearest?).1 d hd).2⟩

end LSystem
