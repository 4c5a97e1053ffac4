import StellarDonations.Paging.Cursors
import StellarDonations.Text.Buffer
import StellarDonations.Text.JsonParse
import StellarDonations.Time.IsoText

/-!
# The text of a cursor

`encodeCursor` writes a cursor as JSON in `base64url`; `decodeCursor` reads it, checks what it has
read and brings the time into the format of `toISOString`. A cursor that was made from an entry
already has its time in that format, so it is read back unchanged (`decodeCursor_encodeCursor`).
-/

namespace StellarDonations.Paging

open JsString Timestamps

/-- What the runtime does with numbers and with the texts of times. -/
structure Runtime (ν : Type) where
  numberText : Json.NumberText ν
  /-- The number that a text in JSON is. -/
  readNumber : List Char → ν
  reads : Json.Reads numberText readNumber
  /-- `String(n)`. -/
  numberString : ν → String
  /-- `new Date(s).getTime()`; there is none where it is `NaN`. -/
  getTime : String → Option ℤ

variable {ν : Type} (rt : Runtime ν)

def cursorPayload (c : Cursor String String) : Json ν :=
  .obj [("timestamp", .str c.timestamp), ("id", .str c.id)]

def encodeCursor (c : Cursor String String) : String :=
  Buffer.toBase64url
    (Buffer.toUtf8 (String.ofList (Json.stringify rt.numberText (cursorPayload c))))

/-- The checks of `decodeCursor`; there is nothing where one of them fails. -/
def readPayload : Json ν → Option (Cursor String String)
  | .obj fields =>
    match Json.member fields "timestamp", Json.member fields "id" with
    | some (.str timestamp), some (.str id) =>
      if trim timestamp = "" then none
      else (rt.getTime timestamp).map fun t ↦ ⟨toISOString t, id⟩
    | some (.str timestamp), some (.num id) =>
      if trim timestamp = "" then none
      else (rt.getTime timestamp).map fun t ↦ ⟨toISOString t, rt.numberString id⟩
    | _, _ => none
  | _ => none

def decodeCursor (cursor : Option String) : Except AppError (Option (Cursor String String)) :=
  match cursor with
  | none => .ok none
  | some "" => .ok none
  | some text =>
    match (Json.parse rt.readNumber (Buffer.ofUtf8 (Buffer.ofBase64 text))).bind
        (readPayload rt) with
    | some c => .ok (some c)
    | none => .error invalidCursor

theorem trim_ne_empty {s : String} {c : Char} (hc : c ∈ s.toList)
    (hspace : isWhiteSpace c = false) :
    trim s ≠ "" := by
  intro htrim
  rw [trim, ← String.ofList_nil, String.ofList_inj, List.reverse_eq_nil_iff,
    List.dropWhile_eq_nil_iff] at htrim
  have hfirst : c ∈ s.toList.dropWhile isWhiteSpace := by
    rw [← List.takeWhile_append_dropWhile (p := isWhiteSpace) (l := s.toList),
      List.mem_append] at hc
    refine hc.resolve_left fun hmem ↦ ?_
    have hwhite := List.mem_takeWhile_imp hmem
    rw [hspace] at hwhite
    cases hwhite
  have hwhite := htrim c (List.mem_reverse.mpr hfirst)
  rw [hspace] at hwhite
  cases hwhite

theorem trim_toISOString (t : ℤ) : trim (toISOString t) ≠ "" := by
  refine trim_ne_empty (c := 'T') ?_ (by decide)
  rw [toISOString, String.toList_append, String.toList_append]
  exact List.mem_append_right _ (List.mem_append_left _ List.mem_cons_self)

/-- **A cursor is read back** when its time is in the format of `toISOString`. -/
theorem decodeCursor_encodeCursor {c : Cursor String String} {t : ℤ}
    (hc : c.timestamp = toISOString t) (ht : rt.getTime (toISOString t) = some t) :
    decodeCursor rt (some (encodeCursor rt c)) = .ok (some c) := by
  have hstringify : Json.stringify rt.numberText (cursorPayload c) ≠ [] := by
    have hpos := Json.length_stringify_pos rt.numberText (cursorPayload c)
    exact List.ne_nil_of_length_pos hpos
  have hne : encodeCursor rt c ≠ "" :=
    Buffer.toBase64url_ne_empty (Buffer.toUtf8_ne_nil fun hnil ↦
      hstringify (String.ofList_inj.mp (hnil.trans String.ofList_nil.symm)))
  have hread : readPayload rt (cursorPayload c) = some c := by
    have htimestamp : Json.member [("timestamp", .str c.timestamp), ("id", .str c.id)] "timestamp" =
        some (.str c.timestamp : Json ν) := by
      rfl
    have hid : Json.member [("timestamp", .str c.timestamp), ("id", .str c.id)] "id" =
        some (.str c.id : Json ν) := by
      rfl
    rw [cursorPayload, readPayload, htimestamp, hid]
    dsimp only
    rw [hc, if_neg (trim_toISOString t), ht, Option.map_some, ← hc]
  unfold decodeCursor
  split
  · rename_i hnone
    cases hnone
  · rename_i hempty
    exact absurd (Option.some.inj hempty) hne
  · rename_i text _ htext
    rw [← Option.some.inj htext, encodeCursor, Buffer.ofBase64_toBase64url, Buffer.ofUtf8_toUtf8,
      Json.parse_stringify rt.reads, Option.bind_some, hread]

end StellarDonations.Paging
