import TracePropagation.Proofs.JsonText

/-!
# JSON text laid out with blanks

A writer may put blanks between any two tokens of a JSON text and spell a string's characters
in more than one way: a pretty printer and a compact one lay out the same document differently.
`Json.Laid d text` says that `text` lays out the document `d`: every value may have blanks
before it, every name blanks around it, every item and member blanks after it, and strings and
numbers are spelled by the grammar of JSON. The skimming reader reads each such text as its
document.

* `Json.StringBody`, `Json.NumberText` — the spellings of strings between their quotes and of
  numbers;
* `Json.stringBody_escaped` — the writer's own spelling of a string is one of them;
* `Json.Laid.readsAs` — the reading machine reads every layout of a document as that
  document, whatever is open around it and whatever follows, as long as what follows starts
  with a blank, a comma or a closing bracket or brace (`Json.ReadsAs`);
* `Json.Doc.read_laid` — reading a whole layout, blanks after it included, gives the document.
-/

namespace TracePropagation.Json

open TracePropagation.Text

/-! ## Blanks -/

/-- Blanks between tokens. -/
def Blank (ws : List Char) : Prop := ∀ c ∈ ws, isJsonBlank c = true

/-- What may follow a value: the end of the text, a blank, a comma, or a closing bracket or
brace. -/
def Delimits (rest : List Char) : Prop :=
  ∀ c ∈ rest.head?, isJsonBlank c = true ∨ c = ',' ∨ c = ']' ∨ c = '}'

theorem Blank.cons {w : Char} {ws : List Char} (h : Blank (w :: ws)) : Blank ws :=
  fun c hc => h c (List.mem_cons_of_mem _ hc)

theorem skipBlanks_blank_append {ws : List Char} (hws : Blank ws) {c : Char}
    (hc : isJsonBlank c = false) (r : List Char) : skipBlanks (ws ++ c :: r) = c :: r := by
  induction ws with
  | nil => exact skipBlanks_cons r hc
  | cons w ws ih =>
    show List.dropWhile _ _ = _
    rw [List.cons_append, List.dropWhile_cons_of_pos (hws w List.mem_cons_self)]
    exact ih hws.cons

theorem skipBlanks_blank {ws : List Char} (hws : Blank ws) : skipBlanks ws = [] := by
  induction ws with
  | nil => rfl
  | cons w ws ih =>
    show List.dropWhile _ _ = _
    rw [List.dropWhile_cons_of_pos (hws w List.mem_cons_self)]
    exact ih hws.cons

/-- Blanks and then a delimiter may follow a value. -/
theorem delimits_blank_append {ws : List Char} (hws : Blank ws) {c : Char}
    (hc : c = ',' ∨ c = ']' ∨ c = '}') (r : List Char) : Delimits (ws ++ c :: r) := by
  intro x hx
  cases ws with
  | nil =>
    obtain rfl : c = x := by simpa using hx
    exact .inr hc
  | cons w ws =>
    obtain rfl : w = x := by simpa using hx
    exact .inl (hws w List.mem_cons_self)

theorem delimits_blank {ws : List Char} (hws : Blank ws) : Delimits ws := by
  intro x hx
  cases ws with
  | nil => cases hx
  | cons w ws =>
    obtain rfl : w = x := by simpa using hx
    exact .inl (hws w List.mem_cons_self)

/-! ## Strings -/

/-- A string's spelling between its quotes that the skimming reader accepts: characters from
the space up other than the quote and the backslash, one-letter escapes, and `\u` escapes with
four hexadecimal digits. -/
inductive StringBody : List Char → Prop
  | nil : StringBody []
  | plain {c : Char} {r : List Char} (hquote : c ≠ '"') (hback : c ≠ '\\')
      (hcontrol : 0x20 ≤ c.toNat) : StringBody r → StringBody (c :: r)
  | short {e : Char} {r : List Char} (he : (unescape e).isSome) :
      StringBody r → StringBody ('\\' :: e :: r)
  | hex {a b c d : Char} {r : List Char} (hhex : (hex4 a b c d).isSome) :
      StringBody r → StringBody ('\\' :: 'u' :: a :: b :: c :: d :: r)

theorem scanString_hex (acc r : List Char) {a b c d : Char} (h : (hex4 a b c d).isSome) :
    scanString false acc ('\\' :: 'u' :: a :: b :: c :: d :: r) =
      scanString false (d :: c :: b :: a :: 'u' :: '\\' :: acc) r := by
  obtain ⟨n, hn⟩ := Option.isSome_iff_exists.mp h
  rw [scanString]
  simp [hn]

/-- **A spelling is scanned to its closing quote**, kept as it stands. -/
theorem scanString_stringBody {raw : List Char} (h : StringBody raw) (acc rest : List Char) :
    scanString false acc (raw ++ '"' :: rest) = .ok (acc.reverse ++ raw, rest) := by
  induction h generalizing acc with
  | nil => simp [scanString_quote]
  | plain hq hb hc _ ih =>
    rw [List.cons_append, scanString_plain _ _ _ hq hb hc, ih]
    simp
  | @short e r he _ ih =>
    -- `u` has no one-letter escape, so the scanner takes the short branch
    have hu : e ≠ 'u' := by
      rintro rfl
      simp [unescape] at he
    rw [List.cons_append, List.cons_append, scanString_shortEscape _ _ _ hu he, ih]
    simp
  | hex hh _ ih =>
    simp only [List.cons_append]
    rw [scanString_hex _ _ hh, ih]
    simp

/-- The writer's spelling of a string is one the skimming reader accepts. -/
theorem stringBody_escaped (s : String) : StringBody (escaped s) := by
  unfold escaped
  induction s.toList with
  | nil => exact .nil
  | cons c s ih =>
    rw [List.flatMap_cons]
    rcases escapeChar_cases c with ⟨e, he, -, hun⟩ | ⟨a, b, he, hhex, -⟩ | ⟨he, h1, h2, h3⟩
    · rw [he]
      exact .short (by simp [hun]) ih
    · rw [he]
      exact .hex (by simp [hhex]) ih
    · rw [he]
      exact .plain h1 h2 h3 ih

/-! ## Numbers -/

/-- The integer part of a number: `0`, or a digit other than `0` and the digits after it. -/
inductive IntegerPart : List Char → Prop
  | zero : IntegerPart ['0']
  | digits {c : Char} {ds : List Char} (hc : c.isDigit = true) (hzero : c ≠ '0')
      (hds : ∀ d ∈ ds, d.isDigit = true) : IntegerPart (c :: ds)

/-- The fraction of a number: nothing, or a point and at least one digit. -/
inductive FractionPart : List Char → Prop
  | empty : FractionPart []
  | point {d : Char} {ds : List Char} (hd : d.isDigit = true) (hds : ∀ x ∈ ds, x.isDigit = true) :
      FractionPart ('.' :: d :: ds)

/-- The exponent of a number: nothing, or `e` or `E`, an optional sign and at least one digit. -/
inductive ExponentPart : List Char → Prop
  | empty : ExponentPart []
  | mark {e d : Char} {sign ds : List Char} (he : e = 'e' ∨ e = 'E')
      (hsign : sign = [] ∨ sign = ['+'] ∨ sign = ['-']) (hd : d.isDigit = true)
      (hds : ∀ x ∈ ds, x.isDigit = true) : ExponentPart (e :: (sign ++ d :: ds))

/-- A number as JSON spells it: an optional minus, an integer part, a fraction and an
exponent. -/
inductive NumberText : List Char → Prop
  | mk {sign int frac exp : List Char} (hsign : sign = [] ∨ sign = ['-']) (hint : IntegerPart int)
      (hfrac : FractionPart frac) (hexp : ExponentPart exp) :
      NumberText (sign ++ int ++ frac ++ exp)

/-- The digits at the front are dropped up to the first character that is none. -/
theorem dropWhile_isDigit_append {ds r : List Char} (hds : ∀ d ∈ ds, d.isDigit = true)
    (hr : ∀ c ∈ r.head?, c.isDigit = false) : (ds ++ r).dropWhile Char.isDigit = r := by
  induction ds with
  | nil =>
    cases r with
    | nil => rfl
    | cons c r => exact List.dropWhile_cons_of_neg (by simp [hr c rfl])
  | cons d ds ih =>
    rw [List.cons_append, List.dropWhile_cons_of_pos (hds d List.mem_cons_self)]
    exact ih fun x hx => hds x (List.mem_cons_of_mem _ hx)

theorem skimInteger_integerPart {int r : List Char} (h : IntegerPart int)
    (hr : ∀ c ∈ r.head?, c.isDigit = false) : skimInteger (int ++ r) = .ok r := by
  cases h with
  | zero =>
    -- after a leading `0` no digit may follow
    cases r with
    | nil => rfl
    | cons c r => simp [skimInteger, hr c rfl]
  | digits hc hzero hds =>
    rw [List.cons_append, skimInteger.eq_def]
    simp [hc, dropWhile_isDigit_append hds hr]

theorem skimFraction_fractionPart {frac r : List Char} (h : FractionPart frac)
    (hr : ∀ c ∈ r.head?, c.isDigit = false ∧ c ≠ '.') : skimFraction (frac ++ r) = .ok r := by
  cases h with
  | empty =>
    cases r with
    | nil => rfl
    | cons c r =>
      rw [List.nil_append, skimFraction.eq_def]
      simp [(hr c rfl).2]
  | @point d ds hd hds =>
    have hdigits : ∀ x ∈ d :: ds, x.isDigit = true := List.forall_mem_cons.mpr ⟨hd, hds⟩
    simp only [List.cons_append, skimFraction, hd, if_true]
    rw [← List.cons_append, dropWhile_isDigit_append hdigits fun c hc => (hr c hc).1]

theorem skimExponent_sign {sign ds r : List Char} {d : Char}
    (hsign : sign = [] ∨ sign = ['+'] ∨ sign = ['-']) (hd : d.isDigit = true)
    (hds : ∀ x ∈ ds, x.isDigit = true) (hr : ∀ c ∈ r.head?, c.isDigit = false) :
    skimExponent (sign ++ d :: (ds ++ r)) = .ok r := by
  -- the digit after the sign, if any, is not a sign
  have hplus : d ≠ '+' := by
    rintro rfl
    cases hd
  have hminus : d ≠ '-' := by
    rintro rfl
    cases hd
  rcases hsign with rfl | rfl | rfl <;>
    simp [skimExponent, hplus, hminus, hd, dropWhile_isDigit_append hds hr]

theorem skimExponentPart_exponentPart {exp r : List Char} (h : ExponentPart exp)
    (hr : ∀ c ∈ r.head?, c.isDigit = false ∧ c ≠ 'e' ∧ c ≠ 'E') :
    skimExponentPart (exp ++ r) = .ok r := by
  cases h with
  | empty =>
    cases r with
    | nil => rfl
    | cons c r =>
      obtain ⟨-, he, hE⟩ := hr c rfl
      rw [List.nil_append, skimExponentPart.eq_def]
      simp [he, hE]
  | mark he hsign hd hds =>
    rcases he with rfl | rfl <;>
      simp only [List.cons_append, skimExponentPart, List.append_assoc] <;>
      exact skimExponent_sign hsign hd hds fun c hc => (hr c hc).1

/-- A character that may follow a value continues no number. -/
theorem delimits_ends_number {rest : List Char} (h : Delimits rest) :
    ∀ c ∈ rest.head?, c.isDigit = false ∧ c ≠ '.' ∧ c ≠ 'e' ∧ c ≠ 'E' := by
  intro c hc
  rcases h c hc with hblank | rfl | rfl | rfl
  · simp only [isJsonBlank, Bool.or_eq_true, decide_eq_true_eq] at hblank
    rcases hblank with ((rfl | rfl) | rfl) | rfl <;> decide
  all_goals decide

/-- A number without its minus is skimmed part by part. -/
theorem skimNumber_cons {c : Char} (hc : c ≠ '-') (r : List Char) :
    skimNumber (c :: r) = skimInteger (c :: r) >>= fun a => skimFraction a >>= skimExponentPart := by
  simp [skimNumber, hc]

/-- What follows an exponent, or its absence, continues no fraction. -/
theorem ExponentPart.head_append {exp rest : List Char} (h : ExponentPart exp)
    (hrest : ∀ c ∈ rest.head?, c.isDigit = false ∧ c ≠ '.') :
    ∀ c ∈ (exp ++ rest).head?, c.isDigit = false ∧ c ≠ '.' := by
  cases h with
  | empty => exact hrest
  | @mark e d sign ds he =>
    intro c hc
    obtain rfl : e = c := by simpa using hc
    rcases he with rfl | rfl <;> decide

/-- What follows a fraction, or its absence, continues no integer part. -/
theorem FractionPart.head_append {frac rest : List Char} (h : FractionPart frac)
    (hrest : ∀ c ∈ rest.head?, c.isDigit = false) :
    ∀ c ∈ (frac ++ rest).head?, c.isDigit = false := by
  cases h with
  | empty => exact hrest
  | point =>
    intro c hc
    obtain rfl : '.' = c := by simpa using hc
    decide

/-- The minus of a number, if any, is dropped; an integer part starts with a digit, which is no
minus. -/
theorem skimNumber_sign_append {sign int : List Char} (hsign : sign = [] ∨ sign = ['-'])
    (hint : IntegerPart int) (r : List Char) :
    skimNumber (sign ++ (int ++ r)) =
      skimInteger (int ++ r) >>= fun a => skimFraction a >>= skimExponentPart := by
  rcases hsign with rfl | rfl
  · cases hint with
    | zero => exact skimNumber_cons (by decide) _
    | @digits c ds hc =>
      have hminus : c ≠ '-' := by
        rintro rfl
        cases hc
      exact skimNumber_cons hminus _
  · rfl

/-- **A number is skimmed to its end**, when a blank, a comma or a closing bracket follows. -/
theorem skimNumber_numberText {t rest : List Char} (ht : NumberText t) (hrest : Delimits rest) :
    skimNumber (t ++ rest) = .ok rest := by
  obtain @⟨sign, int, frac, exp, hsign, hint, hfrac, hexp⟩ := ht
  -- each part ends where the next begins: an exponent mark, a point, or what follows
  have hend := delimits_ends_number hrest
  have hafterFrac := hexp.head_append fun c hc => ⟨(hend c hc).1, (hend c hc).2.1⟩
  have hafterInt := hfrac.head_append fun c hc => (hafterFrac c hc).1
  simp only [List.append_assoc]
  rw [skimNumber_sign_append hsign hint, skimInteger_integerPart hint hafterInt]
  show skimFraction (frac ++ (exp ++ rest)) >>= skimExponentPart = _
  rw [skimFraction_fractionPart hfrac hafterFrac]
  exact skimExponentPart_exponentPart hexp fun c hc => ⟨(hend c hc).1, (hend c hc).2.2⟩

theorem NumberText.head {t : List Char} (ht : NumberText t) :
    ∃ c r, t = c :: r ∧ (c = '-' ∨ c.isDigit = true) := by
  obtain @⟨sign, int, frac, exp, hsign, hint, -, -⟩ := ht
  rcases hsign with rfl | rfl
  · cases hint with
    | zero => exact ⟨'0', _, rfl, .inr (by decide)⟩
    | @digits c ds hc => exact ⟨c, _, rfl, .inr hc⟩
  · exact ⟨'-', _, rfl, .inl rfl⟩

/-! ## Layouts -/

/-- An array item as laid out. -/
structure LaidItem where
  /-- The item. -/
  doc : Doc
  /-- Its text, blanks before it included. -/
  text : List Char
  /-- The blanks after it. -/
  after : List Char

/-- An object member as laid out. -/
structure LaidMember where
  /-- The blanks before the name. -/
  before : List Char
  /-- The name, as spelled between its quotes. -/
  key : List Char
  /-- The blanks between the name and the colon. -/
  beforeColon : List Char
  /-- The value. -/
  doc : Doc
  /-- The value's text, blanks before it included. -/
  text : List Char
  /-- The blanks after the value. -/
  after : List Char

/-- The text of an item, the blanks after it included. -/
def LaidItem.layout (i : LaidItem) : List Char := i.text ++ i.after

/-- The text of a member: its name in quotes, the colon and the value, with their blanks. -/
def LaidMember.layout (m : LaidMember) : List Char :=
  m.before ++ '"' :: (m.key ++ '"' :: (m.beforeColon ++ ':' :: (m.text ++ m.after)))

/-- The text after an array's first item: a comma before each further item. -/
def LaidItem.following (more : List LaidItem) : List Char :=
  more.flatMap fun i => ',' :: i.layout

/-- The text after an object's first member: a comma before each further member. -/
def LaidMember.following (more : List LaidMember) : List Char :=
  more.flatMap fun m => ',' :: m.layout

/-- The blanks around a member and its name are as JSON has them. -/
structure LaidMember.Spaced (m : LaidMember) : Prop where
  before : Blank m.before
  key : StringBody m.key
  beforeColon : Blank m.beforeColon
  after : Blank m.after

/-- `Laid d text`: the text lays out the document `d`, with blanks before every value, around
every name and after every item and member, and strings and numbers spelled by JSON's
grammar. -/
inductive Laid : Doc → List Char → Prop
  | null {ws : List Char} (hws : Blank ws) : Laid .null (ws ++ "null".toList)
  | bool {ws : List Char} (b : Bool) (hws : Blank ws) :
      Laid (.bool b) (ws ++ (if b then "true" else "false").toList)
  | num {ws t : List Char} (hws : Blank ws) (ht : NumberText t) : Laid (.num t) (ws ++ t)
  | str {ws raw : List Char} (hws : Blank ws) (hraw : StringBody raw) :
      Laid (.str raw) (ws ++ '"' :: (raw ++ ['"']))
  | emptyArr {ws inner : List Char} (hws : Blank ws) (hinner : Blank inner) :
      Laid (.arr []) (ws ++ '[' :: (inner ++ [']']))
  | arr {ws : List Char} (first : LaidItem) (more : List LaidItem) (hws : Blank ws)
      (hvalue : ∀ i ∈ first :: more, Laid i.doc i.text)
      (hafter : ∀ i ∈ first :: more, Blank i.after) :
      Laid (.arr ((first :: more).map LaidItem.doc))
        (ws ++ '[' :: (first.layout ++ LaidItem.following more ++ [']']))
  | emptyObj {ws inner : List Char} (hws : Blank ws) (hinner : Blank inner) :
      Laid (.obj []) (ws ++ '{' :: (inner ++ ['}']))
  | obj {ws : List Char} (first : LaidMember) (more : List LaidMember) (hws : Blank ws)
      (hspaced : ∀ m ∈ first :: more, m.Spaced)
      (hvalue : ∀ m ∈ first :: more, Laid m.doc m.text) :
      Laid (.obj ((first :: more).map fun m => (m.key, m.doc)))
        (ws ++ '{' :: (first.layout ++ LaidMember.following more ++ ['}']))

/-! ## Reading a layout -/

/-- The machine reads `text` as `d` in at most as many steps as the text has characters,
whatever arrays and objects are open around it and whatever follows, as long as that may
follow a value. -/
def ReadsAs (d : Doc) (text : List Char) : Prop :=
  ∃ k ≤ text.length, ∀ n stack rest, Delimits rest →
    run .skim (n + k) stack .value (text ++ rest) = run .skim n stack (.close d) rest

theorem isJsonBlank_of_isDigit {c : Char} (h : c.isDigit = true) : isJsonBlank c = false := by
  cases hb : isJsonBlank c with
  | false => rfl
  | true =>
    simp only [isJsonBlank, Bool.or_eq_true, decide_eq_true_eq] at hb
    rcases hb with ((rfl | rfl) | rfl) | rfl <;> exact absurd h (by decide)

/-- A layout starts, after its blanks, with a character that opens a value. -/
theorem Laid.head {d : Doc} {text : List Char} (h : Laid d text) :
    ∃ ws c t, Blank ws ∧ text = ws ++ c :: t ∧ isJsonBlank c = false ∧ c ≠ ']' := by
  cases h with
  | null hws => exact ⟨_, 'n', _, hws, rfl, rfl, by decide⟩
  | bool b hws =>
    cases b
    · exact ⟨_, 'f', _, hws, rfl, rfl, by decide⟩
    · exact ⟨_, 't', _, hws, rfl, rfl, by decide⟩
  | num hws ht =>
    obtain ⟨c, r, rfl, hc⟩ := ht.head
    rcases hc with rfl | hc
    · exact ⟨_, '-', r, hws, rfl, rfl, by decide⟩
    · refine ⟨_, c, r, hws, rfl, isJsonBlank_of_isDigit hc, ?_⟩
      rintro rfl
      exact absurd hc (by decide)
  | str hws => exact ⟨_, '"', _, hws, rfl, rfl, by decide⟩
  | emptyArr hws => exact ⟨_, '[', _, hws, rfl, rfl, by decide⟩
  | arr first more hws => exact ⟨_, '[', _, hws, rfl, rfl, by decide⟩
  | emptyObj hws => exact ⟨_, '{', _, hws, rfl, rfl, by decide⟩
  | obj first more hws => exact ⟨_, '{', _, hws, rfl, rfl, by decide⟩

theorem readsAs_null {ws : List Char} (hws : Blank ws) : ReadsAs .null (ws ++ "null".toList) := by
  refine ⟨1, by simp, fun n stack rest _ => ?_⟩
  have htext : "null".toList ++ rest = 'n' :: ("ull".toList ++ rest) := rfl
  rw [List.append_assoc, htext, run, skipBlanks_blank_append hws (by decide)]
  rfl

theorem readsAs_bool {ws : List Char} (hws : Blank ws) (b : Bool) :
    ReadsAs (.bool b) (ws ++ (if b then "true" else "false").toList) := by
  refine ⟨1, by cases b <;> simp, fun n stack rest _ => ?_⟩
  cases b
  · have htext : "false".toList ++ rest = 'f' :: ("alse".toList ++ rest) := rfl
    rw [if_neg Bool.false_ne_true, List.append_assoc, htext, run,
      skipBlanks_blank_append hws (by decide)]
    rfl
  · have htext : "true".toList ++ rest = 't' :: ("rue".toList ++ rest) := rfl
    rw [if_pos rfl, List.append_assoc, htext, run, skipBlanks_blank_append hws (by decide)]
    rfl

theorem readsAs_num {ws t : List Char} (hws : Blank ws) (ht : NumberText t) :
    ReadsAs (.num t) (ws ++ t) := by
  obtain ⟨c, r, rfl, hc⟩ := ht.head
  refine ⟨1, by simp only [List.length_append, List.length_cons]; omega,
    fun n stack rest hrest => ?_⟩
  have hskim := skimNumber_numberText ht hrest
  rw [List.cons_append] at hskim
  have hscan : scanNumber false (c :: (r ++ rest)) = .ok (c :: r, rest) := by
    rw [scanNumber, if_neg Bool.false_ne_true, hskim, ← List.cons_append]
    show Except.ok (List.take ((c :: r ++ rest).length - rest.length) (c :: r ++ rest), rest) = _
    rw [List.length_append, Nat.add_sub_cancel, List.take_left]
  have hblank : isJsonBlank c = false := by
    rcases hc with rfl | hc
    · decide
    · exact isJsonBlank_of_isDigit hc
  -- a number starts with a minus or a digit, which opens no other value
  have hopen : c ≠ 'n' ∧ c ≠ 't' ∧ c ≠ 'f' ∧ c ≠ '"' ∧ c ≠ '[' ∧ c ≠ '{' := by
    rcases hc with rfl | hc
    · decide
    · refine ⟨?_, ?_, ?_, ?_, ?_, ?_⟩ <;> (rintro rfl; exact absurd hc (by decide))
  have hnum : (decide (c = '-') || c.isDigit) = true := by
    rcases hc with rfl | hc
    · rfl
    · simp [hc]
  rw [List.append_assoc, List.cons_append, run, skipBlanks_blank_append hws hblank]
  simp [hopen, hnum, Dialect.skim, hscan]

theorem readsAs_str {ws raw : List Char} (hws : Blank ws) (hraw : StringBody raw) :
    ReadsAs (.str raw) (ws ++ '"' :: (raw ++ ['"'])) := by
  refine ⟨1, by simp only [List.length_append, List.length_cons]; omega, fun n stack rest _ => ?_⟩
  rw [List.append_assoc, List.cons_append, List.append_assoc, run,
    skipBlanks_blank_append hws (by decide)]
  simp only [Dialect.skim, List.singleton_append]
  rw [scanString_stringBody hraw]
  rfl

theorem readsAs_emptyArr {ws inner : List Char} (hws : Blank ws) (hinner : Blank inner) :
    ReadsAs (.arr []) (ws ++ '[' :: (inner ++ [']'])) := by
  refine ⟨1, by simp only [List.length_append, List.length_cons]; omega, fun n stack rest _ => ?_⟩
  rw [List.append_assoc, List.cons_append, List.append_assoc, run,
    skipBlanks_blank_append hws (by decide)]
  simp only [skim_tooDeep, Bool.false_eq_true, if_false, List.singleton_append]
  rw [skipBlanks_blank_append hinner (by decide)]
  rfl

theorem readsAs_emptyObj {ws inner : List Char} (hws : Blank ws) (hinner : Blank inner) :
    ReadsAs (.obj []) (ws ++ '{' :: (inner ++ ['}'])) := by
  refine ⟨1, by simp only [List.length_append, List.length_cons]; omega, fun n stack rest _ => ?_⟩
  rw [List.append_assoc, List.cons_append, List.append_assoc, run,
    skipBlanks_blank_append hws (by decide)]
  simp only [skim_tooDeep, Bool.false_eq_true, if_false, List.singleton_append]
  rw [skipBlanks_blank_append hinner (by decide)]
  rfl

/-! ### Arrays -/

/-- The bracket opens an array whose first item follows. -/
theorem run_openArray {ws : List Char} (hws : Blank ws) {d : Doc} {text : List Char}
    (hfirst : Laid d text) (n : Nat) (stack : List Frame) (r : List Char) :
    run .skim (n + 1) stack .value (ws ++ '[' :: (text ++ r)) =
      run .skim n (.items [] :: stack) .value (text ++ r) := by
  obtain ⟨ws', c, t, hws', rfl, hc, hclose⟩ := hfirst.head
  rw [run, skipBlanks_blank_append hws (by decide)]
  simp only [skim_tooDeep, Bool.false_eq_true, if_false]
  rw [List.append_assoc, List.cons_append, skipBlanks_blank_append hws' hc]
  split
  · rename_i heq
    exact absurd (List.cons.inj heq).1 hclose
  · rfl

/-- A comma after an item's blanks: the item joins those read and the next one follows. -/
theorem run_nextItem {after : List Char} (hafter : Blank after) {d : Doc} {text : List Char}
    (hnext : Laid d text) (n : Nat) (done : List Doc) (st : List Frame) (v : Doc)
    (r : List Char) :
    run .skim (n + 1) (.items done :: st) (.close v) (after ++ ',' :: (text ++ r)) =
      run .skim n (.items (v :: done) :: st) .value (text ++ r) := by
  obtain ⟨ws, c, t, hws, rfl, hc, hclose⟩ := hnext.head
  rw [run, skipBlanks_blank_append hafter (by decide)]
  simp only []
  rw [List.append_assoc, List.cons_append, skipBlanks_blank_append hws hc]
  split
  · rename_i heq
    exact absurd (List.cons.inj heq).1 hclose
  · rfl

/-- The bracket after the last item's blanks closes the array, its items in reading order. -/
theorem run_closeArray {after : List Char} (hafter : Blank after) (n : Nat) (done : List Doc)
    (st : List Frame) (v : Doc) (r : List Char) :
    run .skim (n + 1) (.items done :: st) (.close v) (after ++ ']' :: r) =
      run .skim n st (.close (.arr (v :: done).reverse)) r := by
  rw [run, skipBlanks_blank_append hafter (by decide)]
  rfl

theorem delimits_following_items {after : List Char} (hafter : Blank after) (more : List LaidItem)
    (rest : List Char) : Delimits (after ++ (LaidItem.following more ++ ']' :: rest)) := by
  cases more with
  | nil => exact delimits_blank_append hafter (.inr (.inl rfl)) rest
  | cons i more => exact delimits_blank_append hafter (.inl rfl) _

/-- The items after an array's first one, read up to the closing bracket: a comma and an item
at a time, until the bracket closes the array with every item read. -/
theorem readsAs_following_items (more : List LaidItem) (hvalue : ∀ i ∈ more, Laid i.doc i.text)
    (hreads : ∀ i ∈ more, ReadsAs i.doc i.text) (hafter : ∀ i ∈ more, Blank i.after) :
    ∃ k ≤ (LaidItem.following more).length, ∀ n st done v after rest, Blank after →
      run .skim (n + k + 1) (.items done :: st) (.close v)
          (after ++ (LaidItem.following more ++ ']' :: rest)) =
        run .skim n st (.close (.arr ((v :: done).reverse ++ more.map LaidItem.doc))) rest := by
  induction more with
  | nil =>
    refine ⟨0, Nat.zero_le _, fun n st done v after rest hblank => ?_⟩
    rw [Nat.add_zero, LaidItem.following, List.flatMap_nil, List.nil_append,
      run_closeArray hblank, List.map_nil, List.append_nil]
  | cons i more ih =>
    obtain ⟨ki, hki, hi⟩ := hreads i List.mem_cons_self
    obtain ⟨km, hkm, hm⟩ := ih (fun j hj => hvalue j (List.mem_cons_of_mem _ hj))
      (fun j hj => hreads j (List.mem_cons_of_mem _ hj))
      (fun j hj => hafter j (List.mem_cons_of_mem _ hj))
    have hfollowing : LaidItem.following (i :: more) =
        ',' :: (i.text ++ (i.after ++ LaidItem.following more)) := by
      simp [LaidItem.following, LaidItem.layout]
    refine ⟨ki + 1 + km, ?_, fun n st done v after rest hblank => ?_⟩
    · rw [hfollowing]
      simp only [List.length_cons, List.length_append]
      omega
    · -- the comma, then the item, then the items after it
      rw [hfollowing, show n + (ki + 1 + km) + 1 = (n + km + 1 + ki) + 1 by omega,
        List.cons_append, List.append_assoc, List.append_assoc,
        run_nextItem hblank (hvalue i List.mem_cons_self),
        hi _ _ _ (delimits_following_items (hafter i List.mem_cons_self) more rest),
        hm n st (v :: done) i.doc i.after rest (hafter i List.mem_cons_self)]
      simp

theorem readsAs_arr {ws : List Char} (hws : Blank ws) (first : LaidItem) (more : List LaidItem)
    (hvalue : ∀ i ∈ first :: more, Laid i.doc i.text)
    (hreads : ∀ i ∈ first :: more, ReadsAs i.doc i.text)
    (hafter : ∀ i ∈ first :: more, Blank i.after) :
    ReadsAs (.arr ((first :: more).map LaidItem.doc))
      (ws ++ '[' :: (first.layout ++ LaidItem.following more ++ [']'])) := by
  obtain ⟨kf, hkf, hf⟩ := hreads first List.mem_cons_self
  obtain ⟨km, hkm, hm⟩ := readsAs_following_items more
    (fun j hj => hvalue j (List.mem_cons_of_mem _ hj))
    (fun j hj => hreads j (List.mem_cons_of_mem _ hj))
    (fun j hj => hafter j (List.mem_cons_of_mem _ hj))
  have hfirst := hafter first List.mem_cons_self
  refine ⟨kf + km + 2, ?_, fun n stack rest _ => ?_⟩
  · simp only [LaidItem.layout, List.length_append, List.length_cons, List.length_nil]
    omega
  · -- the bracket, the first item, then the items after it
    rw [show n + (kf + km + 2) = (n + km + 1 + kf) + 1 by omega]
    simp only [LaidItem.layout, List.append_assoc, List.cons_append, List.nil_append]
    rw [run_openArray hws (hvalue first List.mem_cons_self),
      hf _ _ _ (delimits_following_items hfirst more rest), hm n stack [] first.doc first.after rest hfirst]
    simp

/-! ### Objects -/

theorem scanKey_laid {key bc : List Char} (hkey : StringBody key) (hcolon : Blank bc)
    (r : List Char) : scanKey .skim (key ++ '"' :: (bc ++ ':' :: r)) = .ok (key, r) := by
  simp only [scanKey, Dialect.skim]
  rw [scanString_stringBody hkey]
  simp only [List.reverse_nil, List.nil_append, scanColon]
  rw [skipBlanks_blank_append hcolon (by decide)]
  rfl

/-- The brace opens an object; its first name and colon are read, and its value follows. -/
theorem run_openObject_laid {ws : List Char} (hws : Blank ws) {m : LaidMember} (hm : m.Spaced)
    (n : Nat) (stack : List Frame) (r : List Char) :
    run .skim (n + 1) stack .value
        (ws ++ '{' :: (m.before ++ '"' :: (m.key ++ '"' :: (m.beforeColon ++ ':' :: r)))) =
      run .skim n (.members [] m.key :: stack) .value r := by
  rw [run, skipBlanks_blank_append hws (by decide)]
  simp only [skim_tooDeep, Bool.false_eq_true, if_false]
  rw [skipBlanks_blank_append hm.before (by decide)]
  simp only []
  rw [scanKey_laid hm.key hm.beforeColon]

/-- A comma after a value's blanks: the member joins those read, and the next name and colon
are read. -/
theorem run_nextMember_laid {after : List Char} (hafter : Blank after) {m : LaidMember}
    (hm : m.Spaced) (n : Nat) (done : List (List Char × Doc)) (key : List Char) (st : List Frame)
    (v : Doc) (r : List Char) :
    run .skim (n + 1) (.members done key :: st) (.close v)
        (after ++ ',' :: (m.before ++ '"' :: (m.key ++ '"' :: (m.beforeColon ++ ':' :: r)))) =
      run .skim n (.members ((key, v) :: done) m.key :: st) .value r := by
  rw [run, skipBlanks_blank_append hafter (by decide)]
  simp only []
  rw [skipBlanks_blank_append hm.before (by decide)]
  simp only []
  rw [scanKey_laid hm.key hm.beforeColon]

/-- The brace after the last value's blanks closes the object, its members in reading order. -/
theorem run_closeObject_laid {after : List Char} (hafter : Blank after) (n : Nat)
    (done : List (List Char × Doc)) (key : List Char) (st : List Frame) (v : Doc) (r : List Char) :
    run .skim (n + 1) (.members done key :: st) (.close v) (after ++ '}' :: r) =
      run .skim n st (.close (.obj ((key, v) :: done).reverse)) r := by
  rw [run, skipBlanks_blank_append hafter (by decide)]
  rfl

theorem delimits_following_members {after : List Char} (hafter : Blank after)
    (more : List LaidMember) (rest : List Char) :
    Delimits (after ++ (LaidMember.following more ++ '}' :: rest)) := by
  cases more with
  | nil => exact delimits_blank_append hafter (.inr (.inr rfl)) rest
  | cons m more => exact delimits_blank_append hafter (.inl rfl) _

/-- The members after an object's first one, read up to the closing brace: a comma and a
member at a time, until the brace closes the object with every member read. -/
theorem readsAs_following_members (more : List LaidMember) (hspaced : ∀ m ∈ more, m.Spaced)
    (hreads : ∀ m ∈ more, ReadsAs m.doc m.text) :
    ∃ k ≤ (LaidMember.following more).length, ∀ n st done key v after rest, Blank after →
      run .skim (n + k + 1) (.members done key :: st) (.close v)
          (after ++ (LaidMember.following more ++ '}' :: rest)) =
        run .skim n st
          (.close (.obj (((key, v) :: done).reverse ++ more.map fun m => (m.key, m.doc)))) rest := by
  induction more with
  | nil =>
    refine ⟨0, Nat.zero_le _, fun n st done key v after rest hblank => ?_⟩
    rw [Nat.add_zero, LaidMember.following, List.flatMap_nil, List.nil_append,
      run_closeObject_laid hblank, List.map_nil, List.append_nil]
  | cons m more ih =>
    have hm := hspaced m List.mem_cons_self
    obtain ⟨km, hkm, hrun⟩ := hreads m List.mem_cons_self
    obtain ⟨kr, hkr, hrest⟩ := ih (fun j hj => hspaced j (List.mem_cons_of_mem _ hj))
      (fun j hj => hreads j (List.mem_cons_of_mem _ hj))
    have hfollowing : LaidMember.following (m :: more) =
        ',' :: (m.before ++ '"' :: (m.key ++ '"' :: (m.beforeColon ++ ':' ::
          (m.text ++ (m.after ++ LaidMember.following more))))) := by
      simp [LaidMember.following, LaidMember.layout]
    refine ⟨km + 1 + kr, ?_, fun n st done key v after rest hblank => ?_⟩
    · rw [hfollowing]
      simp only [List.length_cons, List.length_append]
      omega
    · -- the comma and the name, then the value, then the members after it
      rw [hfollowing, show n + (km + 1 + kr) + 1 = (n + kr + 1 + km) + 1 by omega]
      simp only [List.cons_append, List.append_assoc]
      rw [run_nextMember_laid hblank hm, hrun _ _ _ (delimits_following_members hm.after more rest),
        hrest n st ((key, v) :: done) m.key m.doc m.after rest hm.after]
      simp

theorem readsAs_obj {ws : List Char} (hws : Blank ws) (first : LaidMember)
    (more : List LaidMember) (hspaced : ∀ m ∈ first :: more, m.Spaced)
    (hreads : ∀ m ∈ first :: more, ReadsAs m.doc m.text) :
    ReadsAs (.obj ((first :: more).map fun m => (m.key, m.doc)))
      (ws ++ '{' :: (first.layout ++ LaidMember.following more ++ ['}'])) := by
  have hm := hspaced first List.mem_cons_self
  obtain ⟨kf, hkf, hf⟩ := hreads first List.mem_cons_self
  obtain ⟨kr, hkr, hrest⟩ := readsAs_following_members more
    (fun j hj => hspaced j (List.mem_cons_of_mem _ hj))
    (fun j hj => hreads j (List.mem_cons_of_mem _ hj))
  refine ⟨kf + kr + 2, ?_, fun n stack rest _ => ?_⟩
  · simp only [LaidMember.layout, List.length_append, List.length_cons, List.length_nil]
    omega
  · -- the brace and the first name, the first value, then the members after it
    rw [show n + (kf + kr + 2) = (n + kr + 1 + kf) + 1 by omega]
    simp only [LaidMember.layout, List.append_assoc, List.cons_append, List.nil_append]
    rw [run_openObject_laid hws hm, hf _ _ _ (delimits_following_members hm.after more rest),
      hrest n stack [] first.key first.doc first.after rest hm.after]
    simp

/-- **Reading a layout.** The machine reads every layout of a document as that document. -/
theorem Laid.readsAs {d : Doc} {text : List Char} (h : Laid d text) : ReadsAs d text := by
  induction h with
  | null hws => exact readsAs_null hws
  | bool b hws => exact readsAs_bool hws b
  | num hws ht => exact readsAs_num hws ht
  | str hws hraw => exact readsAs_str hws hraw
  | emptyArr hws hinner => exact readsAs_emptyArr hws hinner
  | arr first more hws hvalue hafter ih => exact readsAs_arr hws first more hvalue ih hafter
  | emptyObj hws hinner => exact readsAs_emptyObj hws hinner
  | obj first more hws hspaced _ ih => exact readsAs_obj hws first more hspaced ih

/-- **A laid-out text read whole.** Reading a layout of a document, with blanks after it, gives
the document. -/
theorem Doc.read_laid {d : Doc} {text ws : List Char} (h : Laid d text) (hws : Blank ws) :
    Doc.read .skim (text ++ ws) = .ok d := by
  obtain ⟨k, hk, hrun⟩ := h.readsAs
  -- the reader's fuel covers the steps of the layout and the one that hands the value back
  have hlen : k ≤ (text ++ ws).length := by
    simp only [List.length_append]
    omega
  have hfuel : 2 * (text ++ ws).length + 2 = (2 * (text ++ ws).length + 1 - k) + 1 + k := by
    omega
  rw [Doc.read, hfuel, hrun _ [] ws (delimits_blank hws), run]
  simp only []
  rw [skipBlanks_blank hws]

/-! ## Where an object's names stand -/

/-- A layout of an object starts, after its blanks, with its brace. -/
theorem Laid.obj_head {X : List (List Char × Doc)} {text : List Char} (h : Laid (.obj X) text) :
    ∃ ws t, Blank ws ∧ text = ws ++ '{' :: t := by
  generalize hd : Doc.obj X = d at h
  cases h with
  | emptyObj hws => exact ⟨_, _, hws, rfl⟩
  | obj first more hws => exact ⟨_, _, hws, rfl⟩
  | _ => cases hd

theorem LaidMember.infix_quotedKey (m : LaidMember) : '"' :: m.key ++ ['"'] <:+: m.layout :=
  ⟨m.before, m.beforeColon ++ ':' :: (m.text ++ m.after), by simp [LaidMember.layout]⟩

/-- The text of an object holds each of its names in quotes. -/
theorem Laid.infix_quotedKey {X : List (List Char × Doc)} {text key : List Char}
    (h : Laid (.obj X) text) (hkey : key ∈ X.map Prod.fst) : '"' :: key ++ ['"'] <:+: text := by
  generalize hd : Doc.obj X = d at h
  cases h with
  | emptyObj => simp_all
  | @obj ws first more hws =>
    obtain rfl := Doc.obj.inj hd
    obtain ⟨m, hm, rfl⟩ : ∃ m ∈ first :: more, m.key = key := by
      simpa only [List.map_map, List.mem_map, Function.comp_apply] using hkey
    refine m.infix_quotedKey.trans ?_
    -- the member's text stands after the brace, or after a comma among the later members
    have hmembers : m.layout <:+: first.layout ++ LaidMember.following more := by
      rcases List.mem_cons.mp hm with rfl | hm
      · exact (List.prefix_append _ _).isInfix
      · refine List.IsInfix.trans ?_ (List.suffix_append first.layout _).isInfix
        refine (List.suffix_cons ',' m.layout).isInfix.trans ?_
        exact List.infix_of_mem_flatten (List.mem_map_of_mem hm)
    exact hmembers.trans ((List.prefix_append _ ['}']).isInfix.trans
      ((List.infix_cons (List.infix_refl _)).trans (List.suffix_append ws _).isInfix))
  | _ => cases hd

end TracePropagation.Json
