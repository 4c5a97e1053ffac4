import StellarDonations.Text.Json

/-!
# Reading JSON

`JSON.parse`, by descent into the text. The functions take fuel; as each of them consumes at least a
character before it calls another, the length of the text is always enough. What `stringify` has
written is read back as the value it was written from (`parse_stringify`), by induction on the
value, with whatever follows the text left over.

Strings are those of Lean, so an escaped surrogate without its other half is refused. A key that
occurs twice is kept twice; `member` finds the last one.
-/

universe u

namespace Json

variable {ν : Type u}

/-! ## The parser -/

def skipSpace (s : List Char) : List Char :=
  s.dropWhile fun c ↦ c = ' ' || c = '\t' || c = '\n' || c = '\r'

/-- The value of a hexadecimal digit in either case. -/
def hexDigit? (c : Char) : Option ℕ :=
  if '0' ≤ c ∧ c ≤ '9' then some (c.toNat - 48)
  else if 'a' ≤ c ∧ c ≤ 'f' then some (c.toNat - 87)
  else if 'A' ≤ c ∧ c ≤ 'F' then some (c.toNat - 55)
  else none

/-- A code unit of four hexadecimal digits. -/
def parseUnit : List Char → Option (ℕ × List Char)
  | a :: b :: c :: d :: s => do
    let a ← hexDigit? a
    let b ← hexDigit? b
    let c ← hexDigit? c
    let d ← hexDigit? d
    some (((a * 16 + b) * 16 + c) * 16 + d, s)
  | _ => none

def parseEscape : List Char → Option (Char × List Char)
  | '"' :: s => some ('"', s)
  | '\\' :: s => some ('\\', s)
  | '/' :: s => some ('/', s)
  | 'b' :: s => some (Char.ofNat 8, s)
  | 'f' :: s => some (Char.ofNat 12, s)
  | 'n' :: s => some (Char.ofNat 10, s)
  | 'r' :: s => some (Char.ofNat 13, s)
  | 't' :: s => some (Char.ofNat 9, s)
  | 'u' :: s => do
    let (n, s) ← parseUnit s
    if n < 0xd800 ∨ 0xe000 ≤ n then some (Char.ofNat n, s)
    else if n < 0xdc00 then
      -- the first half of a pair
      match s with
      | '\\' :: 'u' :: s => do
        let (m, s) ← parseUnit s
        if 0xdc00 ≤ m ∧ m < 0xe000 then
          some (Char.ofNat (0x10000 + (n - 0xd800) * 0x400 + (m - 0xdc00)), s)
        else none
      | _ => none
    else none
  | _ => none

def parseChar : List Char → Option (Char × List Char)
  | [] => none
  | c :: s => if c = '\\' then parseEscape s else if c.toNat < 32 then none else some (c, s)

def parseString : ℕ → List Char → Option (List Char × List Char)
  | 0, _ => none
  | fuel + 1, s =>
    if s.head? = some '"' then some ([], s.tail)
    else do
      let (c, s) ← parseChar s
      let (cs, s) ← parseString fuel s
      some (c :: cs, s)

/-- The digits at the start of a text, if there are any, and what follows them. -/
def digits (s : List Char) : Option (List Char) :=
  if (s.head?.map Char.isDigit).getD false then some (s.dropWhile Char.isDigit) else none

/-- The text is a number: a sign, digits without a leading zero, a fraction and an exponent. -/
def isNumber (s : List Char) : Bool :=
  let s := if s.head? = some '-' then s.tail else s
  let afterInteger := if s.head? = some '0' then some s.tail else digits s
  let afterFraction := afterInteger.bind fun s ↦
    if s.head? = some '.' then digits s.tail else some s
  let afterExponent := afterFraction.bind fun s ↦
    if s.head? = some 'e' ∨ s.head? = some 'E' then
      let s := s.tail
      digits (if s.head? = some '+' ∨ s.head? = some '-' then s.tail else s)
    else some s
  afterExponent = some []

def isNumberChar (c : Char) : Bool := c ∈ numberChars || c = 'E'

def parseNumber (read : List Char → ν) (s : List Char) : Option (Json ν × List Char) :=
  let text := s.takeWhile isNumberChar
  if isNumber text then some (num (read text), s.dropWhile isNumberChar) else none

mutual

def parseValue (read : List Char → ν) : ℕ → List Char → Option (Json ν × List Char)
  | 0, _ => none
  | fuel + 1, s =>
    let s := skipSpace s
    if s.head? = some '"' then (parseString fuel s.tail).map fun p ↦ (str (String.ofList p.1), p.2)
    else if s.head? = some '[' then
      let s := skipSpace s.tail
      if s.head? = some ']' then some (arr [], s.tail)
      else (parseElems read fuel s).map fun p ↦ (arr p.1, p.2)
    else if s.head? = some '{' then
      let s := skipSpace s.tail
      if s.head? = some '}' then some (obj [], s.tail)
      else (parseFields read fuel s).map fun p ↦ (obj p.1, p.2)
    else if "null".toList.isPrefixOf s then some (null, s.drop 4)
    else if "true".toList.isPrefixOf s then some (bool true, s.drop 4)
    else if "false".toList.isPrefixOf s then some (bool false, s.drop 5)
    else parseNumber read s

/-- The elements of a list up to its closing bracket. -/
def parseElems (read : List Char → ν) : ℕ → List Char → Option (List (Json ν) × List Char)
  | 0, _ => none
  | fuel + 1, s =>
    match parseValue read fuel s with
    | none => none
    | some (v, s) =>
      let s := skipSpace s
      if s.head? = some ',' then (parseElems read fuel s.tail).map fun p ↦ (v :: p.1, p.2)
      else if s.head? = some ']' then some ([v], s.tail)
      else none

/-- The fields of an object up to its closing brace. -/
def parseFields (read : List Char → ν) : ℕ → List Char →
    Option (List (String × Json ν) × List Char)
  | 0, _ => none
  | fuel + 1, s =>
    let s := skipSpace s
    if s.head? = some '"' then
      match parseString fuel s.tail with
      | none => none
      | some (key, s) =>
        let s := skipSpace s
        if s.head? = some ':' then
          match parseValue read fuel s.tail with
          | none => none
          | some (v, s) =>
            let s := skipSpace s
            if s.head? = some ',' then
              (parseFields read fuel s.tail).map fun p ↦ ((String.ofList key, v) :: p.1, p.2)
            else if s.head? = some '}' then some ([(String.ofList key, v)], s.tail)
            else none
        else none
    else none

end

def parse (read : List Char → ν) (s : String) : Option (Json ν) :=
  match parseValue read (s.toList.length + 1) s.toList with
  | some (v, rest) => if skipSpace rest = [] then some v else none
  | none => none

/-- A property of an object: the last field of the name. -/
def member (fields : List (String × Json ν)) (key : String) : Option (Json ν) :=
  fields.reverse.lookup key

/-! ## Reading what was written -/

theorem parseChar_escape (c : Char) (s : List Char) : parseChar (escape c ++ s) = some (c, s) := by
  induction c using escape_cases with
  | quote => rfl
  | slash => rfl
  | control n hctrl => interval_cases n <;> rfl
  | plain c hquote hslash hctrl hescape =>
    rw [hescape, List.singleton_append, parseChar, if_neg hslash, if_neg hctrl]

theorem head?_escape_append (c : Char) (s : List Char) : (escape c ++ s).head? ≠ some '"' := by
  intro h
  obtain ⟨t, ht⟩ := List.head?_eq_some_iff.mp h
  exact escape_append_ne_quote c s t ht

theorem parseString_flatMap_escape {fuel : ℕ} {cs : List Char} (h : cs.length < fuel)
    (s : List Char) :
    parseString fuel (cs.flatMap escape ++ '"' :: s) = some (cs, s) := by
  induction cs generalizing fuel with
  | nil =>
    cases fuel with
    | zero => exact absurd h (Nat.not_lt_zero _)
    | succ fuel => rfl
  | cons c cs ih =>
    cases fuel with
    | zero => exact absurd h (Nat.not_lt_zero _)
    | succ fuel =>
      rw [List.length_cons] at h
      rw [parseString, List.flatMap_cons, List.append_assoc, if_neg (head?_escape_append c _),
        parseChar_escape]
      dsimp only [Option.bind_eq_bind, Option.bind_some]
      rw [ih (by omega)]
      rfl

def Reads (t : NumberText ν) (read : List Char → ν) : Prop :=
  ∀ n, isNumber (t.text n) = true ∧ read (t.text n) = n

section RoundTrip

variable (t : NumberText ν)

theorem skipSpace_stringify_append (v : Json ν) (s : List Char) :
    skipSpace (stringify t v ++ s) = stringify t v ++ s := by
  have hkind := head?_stringify_append t v s
  cases htext : stringify t v ++ s with
  | nil => rfl
  | cons c cs =>
    rw [htext, List.head?_cons, Option.bind_some] at hkind
    refine List.dropWhile_cons_of_neg ?_
    intro hspace
    rw [Bool.or_eq_true, Bool.or_eq_true, Bool.or_eq_true, decide_eq_true_iff, decide_eq_true_iff,
      decide_eq_true_iff, decide_eq_true_iff] at hspace
    rcases hspace with ((rfl | rfl) | rfl) | rfl
    · cases hkind
    · cases hkind
    · cases hkind
    · cases hkind

theorem length_stringify_pos (v : Json ν) : 0 < (stringify t v).length := by
  rw [List.length_pos_iff]
  intro hnil
  have hkind := head?_stringify t v
  rw [hnil] at hkind
  cases hkind

theorem skipSpace_closeList_append {close : Char} (hclose : close ∈ [']', '}'])
    (xs : List (List Char)) (s : List Char) :
    skipSpace (closeList close xs ++ s) = closeList close xs ++ s := by
  cases xs with
  | cons x xs => rfl
  | nil =>
    rw [List.mem_cons, List.mem_singleton] at hclose
    rcases hclose with rfl | rfl
    · rfl
    · rfl

variable {t} {read : List Char → ν}

/-- The value is read from its text, and what follows is left. -/
def IsRead (t : NumberText ν) (read : List Char → ν) (v : Json ν) : Prop :=
  ∀ fuel s, (stringify t v).length < fuel → Ends s →
    parseValue read fuel (stringify t v ++ s) = some (v, s)

theorem parseElems_stringify {v : Json ν} {vs : List (Json ν)}
    (h : ∀ w ∈ v :: vs, IsRead t read w) {fuel : ℕ} (s : List Char)
    (hfuel : (stringify t v ++ closeList ']' (vs.map (stringify t))).length < fuel) :
    parseElems read fuel (stringify t v ++ (closeList ']' (vs.map (stringify t)) ++ s)) =
      some (v :: vs, s) := by
  have hcomma : ∀ xs, Ends (closeList ']' xs ++ s) := fun xs ↦ ends_closeList (by decide) xs s
  induction vs generalizing v fuel with
  | nil =>
    cases fuel with
    | zero => exact absurd hfuel (Nat.not_lt_zero _)
    | succ fuel =>
      rw [List.map_nil, List.length_append, closeList, List.length_singleton] at hfuel
      rw [parseElems, h v List.mem_cons_self fuel _ (by omega) (hcomma _)]
      rfl
  | cons w ws ih =>
    cases fuel with
    | zero => exact absurd hfuel (Nat.not_lt_zero _)
    | succ fuel =>
      have hpos := length_stringify_pos t v
      rw [List.map_cons, closeList, List.length_append, List.length_cons] at hfuel
      rw [parseElems, h v List.mem_cons_self fuel _ (by omega) (hcomma _)]
      dsimp only
      rw [skipSpace_closeList_append (by decide), List.map_cons, closeList, List.cons_append,
        List.head?_cons, if_pos rfl, List.tail_cons, List.append_assoc,
        ih (fun u hu ↦ h u (List.mem_cons_of_mem v hu)) (by omega)]
      rfl

theorem not_isPrefixOf_cons {c d : Char} (h : c ≠ d) {p : List Char} (hp : p.head? = some d)
    (cs : List Char) : ¬p.isPrefixOf (c :: cs) = true := by
  obtain ⟨ds, rfl⟩ := List.head?_eq_some_iff.mp hp
  rw [List.isPrefixOf_cons_cons, Bool.and_eq_true, beq_iff_eq]
  exact fun hand ↦ h hand.1.symm

theorem span_text_append (n : ν) {s : List Char} (hs : Ends s) :
    (t.text n ++ s).takeWhile isNumberChar = t.text n ∧
      (t.text n ++ s).dropWhile isNumberChar = s := by
  have htext : ∀ c ∈ t.text n, isNumberChar c = true := by
    intro c hc
    rw [isNumberChar, decide_eq_true (t.mem_numberChars n c hc), Bool.true_or]
  have hend : s.takeWhile isNumberChar = [] ∧ s.dropWhile isNumberChar = s := by
    cases s with
    | nil => exact ⟨rfl, rfl⟩
    | cons c s =>
      have hall : ([',', ']', '}'].all fun c ↦ !isNumberChar c) = true := by decide
      have hc := List.all_eq_true.mp hall c (hs c rfl)
      rw [Bool.not_eq_true'] at hc
      rw [List.takeWhile_cons, List.dropWhile_cons, hc]
      exact ⟨rfl, rfl⟩
  rw [List.takeWhile_append_of_pos htext, List.dropWhile_append_of_pos htext, hend.1, hend.2]
  exact ⟨List.append_nil _, rfl⟩

theorem isRead_num (hreads : Reads t read) (n : ν) : IsRead t read (num n) := by
  intro fuel s hfuel hs
  cases fuel with
  | zero => exact absurd hfuel (Nat.not_lt_zero _)
  | succ fuel =>
    obtain ⟨hnumber, hread⟩ := hreads n
    obtain ⟨htake, hdrop⟩ := span_text_append (t := t) n hs
    have htext : stringify t (num n) = t.text n := rfl
    have hskip := skipSpace_stringify_append t (num n) s
    have hparse : parseNumber read (t.text n ++ s) = some (num n, s) := by
      rw [parseNumber, htake, hdrop, if_pos hnumber, hread]
    obtain ⟨c, cs, hcs⟩ := List.exists_cons_of_ne_nil (t.ne_nil n)
    have hc : c ∈ numberChars := t.mem_numberChars n c (by rw [hcs]; exact List.mem_cons_self)
    have hall : (numberChars.all fun c ↦ c ≠ '"' ∧ c ≠ '[' ∧ c ≠ '{' ∧ c ≠ 'n' ∧ c ≠ 't' ∧
        c ≠ 'f') = true := by decide
    obtain ⟨hquote, hbracket, hbrace, hn, ht, hf⟩ :=
      of_decide_eq_true (List.all_eq_true.mp hall c hc)
    rw [htext] at hskip
    rw [parseValue, htext, hskip]
    dsimp only
    rw [hcs, List.cons_append] at hparse ⊢
    rw [List.head?_cons, if_neg (Option.some.inj.mt hquote), if_neg (Option.some.inj.mt hbracket),
      if_neg (Option.some.inj.mt hbrace), if_neg (not_isPrefixOf_cons hn rfl _),
      if_neg (not_isPrefixOf_cons ht rfl _), if_neg (not_isPrefixOf_cons hf rfl _), hparse]

theorem length_le_length_flatMap_escape (cs : List Char) :
    cs.length ≤ (cs.flatMap escape).length := by
  induction cs with
  | nil => exact Nat.zero_le _
  | cons c cs ih =>
    have hpos : 0 < (escape c).length := by
      rw [List.length_pos_iff]
      intro hnil
      have hread := unescape_escape c []
      rw [hnil] at hread
      cases hread
    rw [List.flatMap_cons, List.length_append, List.length_cons]
    omega

theorem parseString_quote (x : String) {fuel : ℕ} (hfuel : (quote x).length ≤ fuel)
    (s : List Char) :
    parseString fuel (quote x ++ s).tail = some (x.toList, s) := by
  have hlength := length_le_length_flatMap_escape x.toList
  rw [quote, List.length_cons, List.length_append, List.length_singleton] at hfuel
  rw [quote, List.cons_append, List.tail_cons, List.append_assoc, List.singleton_append,
    parseString_flatMap_escape (by omega)]

theorem isRead_str (x : String) : IsRead t read (str x) := by
  intro fuel s hfuel _
  cases fuel with
  | zero => exact absurd hfuel (Nat.not_lt_zero _)
  | succ fuel =>
    have htext : stringify t (str x) = quote x := rfl
    have hskip := skipSpace_stringify_append t (str x) s
    rw [htext] at hfuel hskip
    rw [parseValue, htext, hskip]
    have hhead : (quote x ++ s).head? = some '"' := rfl
    dsimp only
    rw [if_pos hhead, parseString_quote x (by omega), Option.map_some, String.ofList_toList]

theorem parseFields_fieldText {f : String × Json ν} (h : IsRead t read f.2) {fuel : ℕ}
    {s : List Char} (hfuel : (fieldText (f.1, stringify t f.2)).length ≤ fuel) (hs : Ends s) :
    parseFields read (fuel + 1) (fieldText (f.1, stringify t f.2) ++ s) =
      if (skipSpace s).head? = some ',' then
        (parseFields read fuel (skipSpace s).tail).map fun p ↦ (f :: p.1, p.2)
      else if (skipSpace s).head? = some '}' then some ([f], (skipSpace s).tail)
      else none := by
  have hfield : fieldText (f.1, stringify t f.2) ++ s =
      quote f.1 ++ (':' :: (stringify t f.2 ++ s)) := by
    rw [fieldText, List.append_assoc, List.cons_append]
  have hskip : skipSpace (quote f.1 ++ (':' :: (stringify t f.2 ++ s))) =
      quote f.1 ++ (':' :: (stringify t f.2 ++ s)) := rfl
  have hhead : (quote f.1 ++ (':' :: (stringify t f.2 ++ s))).head? = some '"' := rfl
  have hcolon : skipSpace (':' :: (stringify t f.2 ++ s)) = ':' :: (stringify t f.2 ++ s) := rfl
  rw [fieldText, List.length_append, List.length_cons] at hfuel
  dsimp only at hfuel
  rw [hfield, parseFields, hskip]
  dsimp only
  rw [if_pos hhead, parseString_quote f.1 (by omega)]
  dsimp only
  rw [hcolon, List.head?_cons, if_pos rfl, List.tail_cons, h fuel s (by omega) hs]
  dsimp only
  rw [String.ofList_toList]

theorem parseFields_stringify {f : String × Json ν} {fs : List (String × Json ν)}
    (h : ∀ g ∈ f :: fs, IsRead t read g.2) {fuel : ℕ} (s : List Char)
    (hfuel : (fieldText (f.1, stringify t f.2) ++
      closeList '}' (fs.map fun g ↦ fieldText (g.1, stringify t g.2))).length < fuel) :
    parseFields read fuel (fieldText (f.1, stringify t f.2) ++
        (closeList '}' (fs.map fun g ↦ fieldText (g.1, stringify t g.2)) ++ s)) =
      some (f :: fs, s) := by
  have hbrace : ∀ xs, Ends (closeList '}' xs ++ s) := fun xs ↦ ends_closeList (by decide) xs s
  induction fs generalizing f fuel with
  | nil =>
    cases fuel with
    | zero => exact absurd hfuel (Nat.not_lt_zero _)
    | succ fuel =>
      rw [List.length_append, List.map_nil, closeList, List.length_singleton] at hfuel
      rw [parseFields_fieldText (h f List.mem_cons_self) (by omega) (hbrace _)]
      rfl
  | cons g gs ih =>
    cases fuel with
    | zero => exact absurd hfuel (Nat.not_lt_zero _)
    | succ fuel =>
      rw [List.map_cons, closeList, List.length_append, List.length_cons] at hfuel
      rw [parseFields_fieldText (h f List.mem_cons_self) (by omega) (hbrace _),
        skipSpace_closeList_append (by decide), List.map_cons, closeList, List.cons_append,
        List.head?_cons, if_pos rfl, List.tail_cons, List.append_assoc,
        ih (fun u hu ↦ h u (List.mem_cons_of_mem f hu)) (by omega)]
      rfl

theorem isRead (hreads : Reads t read) (v : Json ν) : IsRead t read v := by
  induction v with
  | null =>
    intro fuel s hfuel _
    cases fuel with
    | zero => exact absurd hfuel (Nat.not_lt_zero _)
    | succ fuel => rfl
  | bool b =>
    intro fuel s hfuel _
    cases fuel with
    | zero => exact absurd hfuel (Nat.not_lt_zero _)
    | succ fuel => cases b <;> rfl
  | num n => exact isRead_num hreads n
  | str x => exact isRead_str x
  | arr elems ih =>
    intro fuel s hfuel _
    cases fuel with
    | zero => exact absurd hfuel (Nat.not_lt_zero _)
    | succ fuel =>
      have hskip := skipSpace_stringify_append t (arr elems) s
      rw [stringify_arr] at hfuel hskip
      rw [parseValue, stringify_arr, hskip]
      dsimp only
      rw [List.cons_append, List.head?_cons, if_neg (by decide), if_pos rfl, List.tail_cons]
      cases elems with
      | nil => rfl
      | cons w ws =>
        rw [List.map_cons, listText, List.length_cons] at hfuel
        rw [List.map_cons, listText, List.append_assoc, skipSpace_stringify_append,
          if_neg (head?_stringify_append_ne t w _ (by decide)),
          parseElems_stringify ih s (by omega)]
        rfl
  | obj fields ih =>
    intro fuel s hfuel _
    cases fuel with
    | zero => exact absurd hfuel (Nat.not_lt_zero _)
    | succ fuel =>
      have hskip := skipSpace_stringify_append t (obj fields) s
      rw [stringify_obj] at hfuel hskip
      rw [parseValue, stringify_obj, hskip]
      dsimp only
      rw [List.cons_append, List.head?_cons, if_neg (by decide), if_neg (by decide), if_pos rfl,
        List.tail_cons]
      cases fields with
      | nil => rfl
      | cons f fs =>
        rw [List.map_cons, listText, List.length_cons] at hfuel
        have hlt := Nat.lt_of_succ_lt_succ hfuel
        have hhead : skipSpace (fieldText (f.1, stringify t f.2) ++
            (closeList '}' (fs.map fun g ↦ fieldText (g.1, stringify t g.2)) ++ s)) =
            fieldText (f.1, stringify t f.2) ++
              (closeList '}' (fs.map fun g ↦ fieldText (g.1, stringify t g.2)) ++ s) := rfl
        rw [List.map_cons, listText, List.append_assoc, hhead, if_neg (by rintro ⟨⟩),
          parseFields_stringify ih s hlt]
        rfl

theorem parse_stringify (hreads : Reads t read) (v : Json ν) :
    parse read (String.ofList (stringify t v)) = some v := by
  have h := isRead hreads v ((stringify t v).length + 1) [] (Nat.lt_succ_self _) nofun
  rw [List.append_nil] at h
  rw [parse, String.toList_ofList, h]
  rfl

end RoundTrip

end Json
