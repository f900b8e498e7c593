import LSystem.Proofs.Document.ReadBack
import LSystem.Proofs.Json.QuickReader
set_option autoImplicit false

/-! # Vectors read back

A vector is written on one line and read off it member by member, so what becomes of it is what becomes of its
coordinates. The text tells finite vectors apart, but the reader rounds more than once and can miss: it returns
a finite vector with the same signs, each coordinate at most a few places off, and none where digits and power
of ten are small. Where a coordinate is not finite the text has `null` for it, which is refused. -/

namespace LSystem

open Json (Numeral)
open Json.Numeral (Writes Apart places)

namespace Vec

/-! ## The text -/

/-- How a coordinate is written. -/
def coordinateText (x : Float) : String :=
  match Numeral.ofFloat? x with
  | some n => String.ofList n.chars
  | none => "null"

/-- The text of a vector is made of those of its coordinates. -/
theorem compact_toJson (v : Point) : v.toJson.compact =
    "\x7b\"x\":" ++ coordinateText v.x ++ ",\"y\":" ++ coordinateText v.y ++ "\x7d" := by
  have hfloat (out : String) (depth : Nat) (x : Float) :
      Json.write .compact depth out (.float x) = out ++ coordinateText x := by
    unfold Json.float coordinateText
    cases Numeral.ofFloat? x <;> simp [Json.write]
  have hgap (depth : Nat) : Json.Layout.compact.gap depth = "" := rfl
  have hcolon : Json.Layout.compact.colon = ":" := rfl
  simp [Json.compact, toJson, Json.write, Json.writeMember, Json.writeMembers, hfloat, hgap, hcolon,
    Json.quote, Json.escape, String.append_assoc]

theorem coordinateText_of_not_isFinite {x : Float} (hx : Binary64.isFinite x = false) :
    coordinateText x = "null" := by
  rw [coordinateText, Numeral.ofFloat?_eq_none hx]

/-- Vectors with the same text are the same, for a reader that rounds once recovers both. -/
theorem compact_injOn {v w : Point} (hv : v.isFinite = true) (hw : w.isFinite = true)
    (h : v.toJson.compact = w.toJson.compact) : v = w := by
  have hround := Numeral.correctlyRounded_nearest?
  have hjson := Json.Reader.read?_compact (Json.isWellFormed_vec v)
  rw [h, Json.Reader.read?_compact (Json.isWellFormed_vec w)] at hjson
  have hread := Json.point?_toJson hround hv
  rw [← Option.some.inj hjson, Json.point?_toJson hround hw] at hread
  exact (Option.some.inj hread).symm

/-! ## Reading -/

/-- A vector is read off its text by its members, and these are what was written. -/
theorem ofText?_compact (v : Point) :
    ofText? v.toJson.compact = ofMembers? [("x", .float v.x), ("y", .float v.y)] := by
  have hmembers : ∀ m ∈ [("x", Json.float v.x), ("y", Json.float v.y)],
      Json.Reader.ReadsBack .compact m.2 := by
    intro m hm
    refine Json.Reader.readsBack Json.Reader.spaces_compact ?_
    fin_cases hm <;> exact Json.isWellFormed_float _
  obtain ⟨body, hbody, hread⟩ :=
    Json.Reader.exists_members? Json.Reader.spaces_compact 0 none hmembers
  have htext : v.toJson.compact.toList = '\x7b' :: body := hbody
  have hfuel : 2 * body.length ≤ 2 * ('\x7b' :: body).length + 2 := by
    rw [List.length_cons]
    omega
  have hrest := hread _ [] hfuel
  rw [List.append_nil] at hrest
  unfold ofText? read?
  rw [htext, Json.Reader.skip_cons rfl]
  simp only [hrest, Option.bind_eq_bind, Option.bind_some]
  cases ofMembers? [("x", Json.float v.x), ("y", Json.float v.y)] <;> rfl

/-- A coordinate is read as its numeral is. -/
theorem coordinate?_float (x : Float) :
    coordinate? (.float x) = (Numeral.ofFloat? x).bind Numeral.toFloat? := by
  unfold Json.float
  cases Numeral.ofFloat? x <;> rfl

theorem ofText?_eq (v : Point) : ofText? v.toJson.compact =
    ((Numeral.ofFloat? v.x).bind Numeral.toFloat?).bind fun x =>
      ((Numeral.ofFloat? v.y).bind Numeral.toFloat?).map fun y => ⟨x, y⟩ := by
  have hx (j k : Json) : only? "x" [("x", j), ("y", k)] = some j := rfl
  have hy (j k : Json) : only? "y" [("x", j), ("y", k)] = some k := rfl
  rw [ofText?_compact, ← coordinate?_float, ← coordinate?_float, ofMembers?, hx, hy]
  simp only [Option.bind_eq_bind, Option.bind_some]
  cases coordinate? (.float v.x) with
  | none => rfl
  | some x => cases coordinate? (.float v.y) <;> rfl

/-- **Vectors are read back to within a few places.** The numerals in the text of a finite vector determine
    it, and it is read as a finite vector with the same signs whose coordinates are as close as `places` says,
    the same one where the digits of both fit a significand and their powers of ten are small. A vector that
    is not finite has `null` in its text and is refused. -/
theorem read_back_law (v : Point) :
    let text := v.toJson.compact
    (v.isFinite = true →
      (∀ w : Point, w.isFinite = true → w.toJson.compact = text → w = v) ∧
      ∃ (m n : Numeral) (w : Point), Numeral.ofFloat? v.x = some m ∧ Numeral.ofFloat? v.y = some n ∧
        text = "\x7b\"x\":" ++ String.ofList m.chars ++ ",\"y\":" ++ String.ofList n.chars ++ "\x7d" ∧
        m.Writes v.x ∧ n.Writes v.y ∧ ofText? text = some w ∧ w.isFinite = true ∧
        Apart (places m.toDecimal) v.x w.x ∧ Apart (places n.toDecimal) v.y w.y ∧
        (places m.toDecimal = 0 → places n.toDecimal = 0 → w = v)) ∧
    (Binary64.isFinite v.x = false → text = "\x7b\"x\":null,\"y\":" ++ coordinateText v.y ++ "\x7d") ∧
    (Binary64.isFinite v.y = false → text = "\x7b\"x\":" ++ coordinateText v.x ++ ",\"y\":null\x7d") ∧
    (v.isFinite = false → ofText? text = none) := by
  intro text
  refine ⟨?_, ?_, ?_, ?_⟩
  · intro hv
    refine ⟨fun w hw htext => compact_injOn hw hv htext, ?_⟩
    obtain ⟨hx, hy⟩ := Bool.and_eq_true_iff.1 hv
    obtain ⟨m, x, hm, hwrites, hread, hfinite, hapart⟩ := Numeral.exists_toFloat? hx
    obtain ⟨n, y, hn, hwrites', hread', hfinite', hapart'⟩ := Numeral.exists_toFloat? hy
    refine ⟨m, n, ⟨x, y⟩, hm, hn, ?_, hwrites, hwrites', ?_, Bool.and_eq_true_iff.2 ⟨hfinite, hfinite'⟩, hapart,
      hapart', ?_⟩
    · show v.toJson.compact = _
      rw [compact_toJson, coordinateText, coordinateText, hm, hn]
    · show ofText? v.toJson.compact = _
      rw [ofText?_eq, hm, hn]
      simp [hread, hread']
    · intro hm0 hn0
      rw [hm0] at hapart
      rw [hn0] at hapart'
      rw [hapart.eq, hapart'.eq]
  · intro hx
    show v.toJson.compact = _
    rw [compact_toJson, coordinateText_of_not_isFinite hx]
    rfl
  · intro hy
    show v.toJson.compact = _
    rw [compact_toJson, coordinateText_of_not_isFinite hy, String.append_assoc, String.append_assoc]
    rfl
  · intro hv
    show ofText? v.toJson.compact = _
    rw [ofText?_eq]
    rcases Bool.and_eq_false_iff.1 hv with hx | hy
    · rw [Numeral.ofFloat?_eq_none hx]
      rfl
    · rw [Numeral.ofFloat?_eq_none hy]
      simp

/-- A negative zero and a tenth come back as they were. -/
theorem read_back_exactly :
    let v : Point := ⟨Float.ofBits 0x8000000000000000, Float.ofBits 0x3fb999999999999a⟩
    v.isFinite = true ∧ ofText? v.toJson.compact = some v := by
  intro v
  have hv : v.isFinite = true := by decide +kernel
  obtain ⟨m, n, w, hm, hn, -, -, -, hread, -, -, -, hsame⟩ := ((read_back_law v).1 hv).2
  have hm0 : (Numeral.ofFloat? v.x).map (fun m => places m.toDecimal) = some 0 := by decide +kernel
  have hn0 : (Numeral.ofFloat? v.y).map (fun n => places n.toDecimal) = some 0 := by decide +kernel
  rw [hm, Option.map_some, Option.some.injEq] at hm0
  rw [hn, Option.map_some, Option.some.injEq] at hn0
  exact ⟨hv, hsame hm0 hn0 ▸ hread⟩

/-- Fourteen tenths added up have 17 digits, `1.4000000000000001`, and come back as `1.4`. -/
theorem read_back_misses :
    let v : Point := ⟨Float.ofBits 0x3ff6666666666667, Float.ofBits 0⟩
    let w : Point := ⟨Float.ofBits 0x3ff6666666666666, Float.ofBits 0⟩
    v.isFinite = true ∧ v.toJson.compact = "\x7b\"x\":1.4000000000000001,\"y\":0.0\x7d" ∧
      ofText? v.toJson.compact = some w ∧ v.x.toBits ≠ w.x.toBits := by
  refine ⟨?_, ?_, ?_, ?_⟩
  · decide +kernel
  · decide +kernel
  · decide +kernel
  · decide +kernel

end Vec

end LSystem
