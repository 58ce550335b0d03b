import Mathlib.Data.String.Basic
import PrismServe.Lib.Lists

/-!
# JSON documents and their texts

A document is a tree; the fields of an object are a list, and a value of the host
language has every key once (`Proper`, which also excludes floats: their texts are
a parameter).  `sortKeys` puts the fields of every object in the order of their
keys, and `dumps` writes the sorted document without blanks.

The text of a value can be read off the front of any longer text in which no digit
follows it.  So two proper documents have the same text exactly when they are the
same up to the order of their fields.
-/

namespace PrismServe

/-- A JSON document, as the parser returns it. -/
inductive Json
  | null
  | bool (b : Bool)
  | integer (n : Int)
  /-- A literal with a fraction or an exponent. -/
  | number (q : Rat)
  /-- The literals `NaN` and `Infinity`, which the parser accepts. -/
  | nan
  | infinity (negative : Bool)
  | string (s : String)
  | array (items : List Json)
  | object (fields : List (String × Json))

namespace Json

/-- A document without floats in which every key occurs once in its object. -/
inductive Proper : Json → Prop
  | null : Proper null
  | bool (b : Bool) : Proper (bool b)
  | integer (n : Int) : Proper (integer n)
  | string (s : String) : Proper (string s)
  | array {items : List Json} (hitems : ∀ v ∈ items, Proper v) : Proper (array items)
  | object {fields : List (String × Json)} (hkeys : (fields.map Prod.fst).Nodup)
      (hvalues : ∀ e ∈ fields, Proper e.2) : Proper (object fields)

/-! ## Characters -/

/-- The characters that are escaped by a letter of their own. -/
def shortEscape : Char → Option Char
  | '"' => some '"'
  | '\\' => some '\\'
  | '\n' => some 'n'
  | '\r' => some 'r'
  | '\t' => some 't'
  | '\x08' => some 'b'
  | '\x0c' => some 'f'
  | _ => none

/-- Four hexadecimal digits. -/
def hex (n : Nat) : List Char :=
  [(n / 4096 % 16).digitChar, (n / 256 % 16).digitChar, (n / 16 % 16).digitChar,
    (n % 16).digitChar]

/-- The escape of a UTF-16 unit. -/
def unitEscape (n : Nat) : List Char := '\\' :: 'u' :: hex n

/-- A character that stands for itself, unless it has a short escape. -/
def isPlain (ascii : Bool) (c : Char) : Bool :=
  decide (' '.toNat ≤ c.toNat) && (!ascii || decide (c.toNat ≤ '~'.toNat))

/-- The escape of a character that is neither plain nor has a short escape; beyond the basic
plane it takes a pair of surrogates. -/
def longEscape (c : Char) : List Char :=
  if c.toNat < 0x10000 then unitEscape c.toNat
  else
    unitEscape (0xd800 + (c.toNat - 0x10000) / 0x400) ++
      unitEscape (0xdc00 + (c.toNat - 0x10000) % 0x400)

def escape (ascii : Bool) (c : Char) : List Char :=
  match shortEscape c with
  | some e => ['\\', e]
  | none => if isPlain ascii c then [c] else longEscape c

def quote (ascii : Bool) (s : String) : List Char :=
  '"' :: (s.toList.flatMap (escape ascii) ++ ['"'])

/-! ## Documents -/

def integerText : Int → List Char
  | .ofNat n => Nat.toDigits 10 n
  | .negSucc n => '-' :: Nat.toDigits 10 (n + 1)

/-- The texts of the items behind the first. -/
def following (closing : Char) : List (List Char) → List Char
  | [] => [closing]
  | t :: rest => ',' :: (t ++ following closing rest)

/-- The texts of the items, separated and closed. -/
def joined (closing : Char) : List (List Char) → List Char
  | [] => [closing]
  | t :: rest => t ++ following closing rest

/-- How a document is written: with `ensure_ascii` or without, and how its floats are. -/
structure Format where
  ascii : Bool
  float : Rat → List Char

section Text

variable (f : Format)

mutual

/-- The text of a document with its fields in the order they are in. -/
def text : Json → List Char
  | null => ['n', 'u', 'l', 'l']
  | bool true => ['t', 'r', 'u', 'e']
  | bool false => ['f', 'a', 'l', 's', 'e']
  | integer n => integerText n
  | number q => f.float q
  | nan => "NaN".toList
  | infinity negative => if negative then "-Infinity".toList else "Infinity".toList
  | string s => quote f.ascii s
  | array items => '[' :: joined ']' (itemTexts items)
  | object fields => '{' :: joined '}' (fieldTexts fields)

def itemTexts : List Json → List (List Char)
  | [] => []
  | v :: rest => text v :: itemTexts rest

def fieldTexts : List (String × Json) → List (List Char)
  | [] => []
  | (key, v) :: rest => (quote f.ascii key ++ ':' :: text v) :: fieldTexts rest

end

end Text

mutual

/-- Sort the fields of every object by their keys. -/
def sortKeys : Json → Json
  | array items => array (sortItems items)
  | object fields => object ((sortFields fields).insertionSort fun a b => a.1 ≤ b.1)
  | v => v

def sortItems : List Json → List Json
  | [] => []
  | v :: rest => sortKeys v :: sortItems rest

def sortFields : List (String × Json) → List (String × Json)
  | [] => []
  | (key, v) :: rest => (key, sortKeys v) :: sortFields rest

end

/-- `json.dumps(value, sort_keys=True, separators=(",", ":"))` -/
def dumps (f : Format) (v : Json) : String := String.ofList (text f v.sortKeys)

section Equations

variable (f : Format)

theorem itemTexts_eq_map (items : List Json) : itemTexts f items = items.map (text f) := by
  induction items with
  | nil =>
    rfl
  | cons v rest ih =>
    rw [itemTexts, ih, List.map_cons]

theorem fieldTexts_eq_map (fields : List (String × Json)) :
    fieldTexts f fields = fields.map fun e => quote f.ascii e.1 ++ ':' :: text f e.2 := by
  induction fields with
  | nil =>
    rfl
  | cons e rest ih =>
    rw [fieldTexts, ih, List.map_cons]

theorem sortItems_eq_map (items : List Json) : sortItems items = items.map sortKeys := by
  induction items with
  | nil =>
    rfl
  | cons v rest ih =>
    rw [sortItems, ih, List.map_cons]

theorem sortFields_eq_map (fields : List (String × Json)) :
    sortFields fields = fields.map fun e => (e.1, e.2.sortKeys) := by
  induction fields with
  | nil =>
    rfl
  | cons e rest ih =>
    rw [sortFields, ih, List.map_cons]

end Equations

/-- What the digest of a text and the text of a document depend on. -/
structure Digest where
  sha256 : String → String
  float : Rat → List Char

namespace Digest

/-- The texts that `json.dumps` writes. -/
def ascii (d : Digest) : Format := ⟨true, d.float⟩

/-- The texts with `ensure_ascii=False`. -/
def unicode (d : Digest) : Format := ⟨false, d.float⟩

end Digest

/-! ## Characters can be told apart -/

/-- What a short escape stands for. -/
def shortMeaning : Char → Char
  | 'n' => '\n'
  | 'r' => '\r'
  | 't' => '\t'
  | 'b' => '\x08'
  | 'f' => '\x0c'
  | e => e

theorem shortEscape_spec {c e : Char} (h : shortEscape c = some e) :
    e ≠ 'u' ∧ shortMeaning e = c := by
  unfold shortEscape at h
  split at h <;> first
    | (obtain rfl := Option.some.inj h
       decide)
    | cases h

theorem shortEscape_injective {c d e : Char} (hc : shortEscape c = some e)
    (hd : shortEscape d = some e) : c = d := by
  rw [← (shortEscape_spec hc).2, (shortEscape_spec hd).2]

variable {r r' : List Char} {ascii : Bool} {m n : Nat} {c : Char}

theorem ne_of_shortEscape_eq_none (h : shortEscape c = none) : c ≠ '"' ∧ c ≠ '\\' := by
  constructor
  · rintro rfl
    simp [shortEscape] at h
  · rintro rfl
    simp [shortEscape] at h

theorem digitChar_injective : ∀ a < 16, ∀ b < 16, Nat.digitChar a = Nat.digitChar b → a = b := by
  decide

theorem hex_injective (hm : m < 0x10000) (hn : n < 0x10000) (h : hex m = hex n) : m = n := by
  simp only [hex, List.cons.injEq] at h
  obtain ⟨h₁, h₂, h₃, h₄, -⟩ := h
  have h₁ := digitChar_injective _ (Nat.mod_lt _ (by decide)) _ (Nat.mod_lt _ (by decide)) h₁
  have h₂ := digitChar_injective _ (Nat.mod_lt _ (by decide)) _ (Nat.mod_lt _ (by decide)) h₂
  have h₃ := digitChar_injective _ (Nat.mod_lt _ (by decide)) _ (Nat.mod_lt _ (by decide)) h₃
  have h₄ := digitChar_injective _ (Nat.mod_lt _ (by decide)) _ (Nat.mod_lt _ (by decide)) h₄
  omega

theorem unitEscape_append (hm : m < 0x10000) (hn : n < 0x10000)
    (h : unitEscape m ++ r = unitEscape n ++ r') : m = n ∧ r = r' := by
  have hlength : (unitEscape m).length = (unitEscape n).length := rfl
  obtain ⟨hunit, hrest⟩ := List.append_inj h hlength
  refine ⟨hex_injective hm hn ?_, hrest⟩
  simpa [unitEscape] using hunit

/-- A character is no surrogate. -/
theorem toNat_cases (c : Char) : c.toNat < 0xd800 ∨ 0xdfff < c.toNat ∧ c.toNat < 0x110000 := c.valid

theorem longEscape_append {c d : Char} (h : longEscape c ++ r = longEscape d ++ r') :
    c = d ∧ r = r' := by
  have hc := toNat_cases c
  have hd := toNat_cases d
  unfold longEscape at h
  split at h <;> split at h
  · obtain ⟨hcode, hrest⟩ := unitEscape_append (by omega) (by omega) h
    exact ⟨Char.toNat_inj.mp hcode, hrest⟩
  · rw [List.append_assoc] at h
    have hcode := (unitEscape_append (by omega) (by omega) h).1
    omega
  · rw [List.append_assoc] at h
    have hcode := (unitEscape_append (by omega) (by omega) h).1
    omega
  · rw [List.append_assoc, List.append_assoc] at h
    obtain ⟨hhigh, h⟩ := unitEscape_append (by omega) (by omega) h
    obtain ⟨hlow, hrest⟩ := unitEscape_append (by omega) (by omega) h
    exact ⟨Char.toNat_inj.mp (by omega), hrest⟩

/-- What an escape looks like at its first two characters. -/
def escapeKind : List Char → Nat
  | '\\' :: 'u' :: _ => 2
  | '\\' :: _ => 1
  | _ => 0

theorem escapeKind_short {e : Char} (h : e ≠ 'u') (r : List Char) :
    escapeKind ('\\' :: e :: r) = 1 := by
  unfold escapeKind
  split
  · simp_all
  · rfl
  · simp_all

theorem escapeKind_plain (h : c ≠ '\\') (r : List Char) : escapeKind (c :: r) = 0 := by
  unfold escapeKind
  split
  · simp_all
  · simp_all
  · rfl

theorem escapeKind_long (c : Char) (r : List Char) : escapeKind (longEscape c ++ r) = 2 := by
  unfold longEscape
  split
  · rfl
  · rfl

theorem escape_cases (ascii : Bool) (c : Char) :
    (∃ e, shortEscape c = some e ∧ escape ascii c = ['\\', e] ∧
        ∀ r, escapeKind (escape ascii c ++ r) = 1) ∨
      (c ≠ '"' ∧ escape ascii c = [c] ∧ ∀ r, escapeKind (escape ascii c ++ r) = 0) ∨
      (escape ascii c = longEscape c ∧ ∀ r, escapeKind (escape ascii c ++ r) = 2) := by
  unfold escape
  split
  · rename_i e he
    exact .inl ⟨e, he, rfl, escapeKind_short (shortEscape_spec he).1⟩
  rename_i he
  obtain ⟨hquote, hbackslash⟩ := ne_of_shortEscape_eq_none he
  split
  · exact .inr (.inl ⟨hquote, rfl, escapeKind_plain hbackslash⟩)
  · exact .inr (.inr ⟨rfl, escapeKind_long c⟩)

theorem escape_append {c d : Char} (h : escape ascii c ++ r = escape ascii d ++ r') :
    c = d ∧ r = r' := by
  have hkind := congrArg escapeKind h
  -- the two escapes are of the same kind: both short, both plain or both long
  rcases escape_cases ascii c with ⟨e, hc, he, hk⟩ | ⟨-, he, hk⟩ | ⟨he, hk⟩ <;>
    rcases escape_cases ascii d with ⟨e', hd, he', hk'⟩ | ⟨-, he', hk'⟩ | ⟨he', hk'⟩ <;>
    rw [hk r, hk' r'] at hkind <;> cases hkind <;> rw [he, he'] at h
  · simp only [List.cons_append, List.nil_append, List.cons.injEq, true_and] at h
    exact ⟨shortEscape_injective hc (h.1 ▸ hd), h.2⟩
  · simpa using h
  · exact longEscape_append h

/-- An escape does not start with a quotation mark. -/
theorem escape_ne_quote (ascii : Bool) (c : Char) :
    ∃ x rest, escape ascii c = x :: rest ∧ x ≠ '"' := by
  rcases escape_cases ascii c with ⟨e, -, he, -⟩ | ⟨hc, he, -⟩ | ⟨he, -⟩
  · exact ⟨_, _, he, by decide⟩
  · exact ⟨_, _, he, hc⟩
  · unfold longEscape at he
    split at he
    · exact ⟨_, _, he, by decide⟩
    · exact ⟨_, _, he, by decide⟩

theorem escapes_append {s t r r' : List Char}
    (h : s.flatMap (escape ascii) ++ '"' :: r = t.flatMap (escape ascii) ++ '"' :: r') :
    s = t ∧ r = r' := by
  induction s generalizing t with
  | nil =>
    cases t with
    | nil =>
      simpa using h
    | cons d t =>
      obtain ⟨x, rest, he, hx⟩ := escape_ne_quote ascii d
      simp only [List.flatMap_nil, List.nil_append, List.flatMap_cons, he, List.cons_append,
        List.cons.injEq] at h
      exact absurd h.1.symm hx
  | cons c s ih =>
    cases t with
    | nil =>
      obtain ⟨x, rest, he, hx⟩ := escape_ne_quote ascii c
      simp only [List.flatMap_nil, List.nil_append, List.flatMap_cons, he, List.cons_append,
        List.cons.injEq] at h
      exact absurd h.1 hx
    | cons d t =>
      rw [List.flatMap_cons, List.flatMap_cons, List.append_assoc, List.append_assoc] at h
      obtain ⟨rfl, htail⟩ := escape_append h
      obtain ⟨rfl, hrest⟩ := ih htail
      exact ⟨rfl, hrest⟩

theorem quote_append {s t : String} (h : quote ascii s ++ r = quote ascii t ++ r') :
    s = t ∧ r = r' := by
  simp only [quote, List.cons_append, List.append_assoc, List.cons.injEq, true_and,
    List.nil_append] at h
  obtain ⟨hs, hr⟩ := escapes_append h
  exact ⟨String.toList_injective hs, hr⟩

/-! ## Texts can be read off the front -/

/-- No digit comes first. -/
def NoDigit (r : List Char) : Prop := ∀ c ∈ r.head?, c.isDigit = false

theorem noDigit_nil : NoDigit [] := by
  intro c hc
  cases hc

theorem noDigit_cons (h : c.isDigit = false) (r : List Char) : NoDigit (c :: r) := by
  intro d hd
  obtain rfl := Option.some.inj hd
  exact h

theorem takeWhile_digits {n : Nat} {r : List Char} (hr : NoDigit r) :
    (Nat.toDigits 10 n ++ r).takeWhile Char.isDigit = Nat.toDigits 10 n := by
  have hdigits : ∀ c ∈ Nat.toDigits 10 n, c.isDigit = true :=
    fun c hc => Nat.isDigit_of_mem_toDigits (by decide) (by decide) hc
  rw [List.takeWhile_append_of_pos hdigits]
  cases r with
  | nil =>
    simp
  | cons c r =>
    rw [List.takeWhile_cons_of_neg (by simp [hr c rfl]), List.append_nil]

theorem toDigits_append (hr : NoDigit r) (hr' : NoDigit r')
    (h : Nat.toDigits 10 m ++ r = Nat.toDigits 10 n ++ r') : m = n ∧ r = r' := by
  have hdigits : Nat.toDigits 10 m = Nat.toDigits 10 n := by
    rw [← takeWhile_digits hr, h, takeWhile_digits hr']
  refine ⟨?_, ?_⟩
  · rw [← Nat.ofDigitChars_ten_toDigits (n := m), hdigits, Nat.ofDigitChars_ten_toDigits]
  · rw [hdigits] at h
    exact List.append_cancel_left h

theorem toDigits_head (n : Nat) : ∃ c rest, Nat.toDigits 10 n = c :: rest ∧ c.isDigit = true := by
  cases h : Nat.toDigits 10 n with
  | nil =>
    exact absurd h Nat.toDigits_ne_nil
  | cons c rest =>
    refine ⟨c, rest, rfl, ?_⟩
    exact Nat.isDigit_of_mem_toDigits (n := n) (b := 10) (by decide) (by decide) (by simp [h])

theorem integerText_append {m n : Int} (hr : NoDigit r) (hr' : NoDigit r')
    (h : integerText m ++ r = integerText n ++ r') : m = n ∧ r = r' := by
  have hminus : ∀ {k : Nat} {r r' : List Char}, Nat.toDigits 10 k ++ r ≠ '-' :: r' := by
    intro k r r' hk
    obtain ⟨c, rest, hc, hdigit⟩ := toDigits_head k
    rw [hc, List.cons_append, List.cons.injEq] at hk
    rw [hk.1] at hdigit
    exact absurd hdigit (by decide)
  cases m with
  | ofNat m =>
    cases n with
    | ofNat n =>
      obtain ⟨rfl, hrest⟩ := toDigits_append hr hr' h
      exact ⟨rfl, hrest⟩
    | negSucc n =>
      exact absurd h hminus
  | negSucc m =>
    cases n with
    | ofNat n =>
      exact absurd h.symm hminus
    | negSucc n =>
      simp only [integerText, List.cons_append, List.cons.injEq, true_and] at h
      obtain ⟨hmn, hrest⟩ := toDigits_append hr hr' h
      exact ⟨by omega, hrest⟩

section Joined

variable {α : Type*} {P : α → Prop} {render : α → List Char} {closing : Char}

/-- Among the values with `P`, the text of `x` is read off the front of any text in which no
digit follows it. -/
def Readable (P : α → Prop) (render : α → List Char) (x : α) : Prop :=
  ∀ y, P y → ∀ r r', NoDigit r → NoDigit r' → render x ++ r = render y ++ r' → x = y ∧ r = r'

theorem noDigit_following (hdigit : closing.isDigit = false) (l : List (List Char))
    (r : List Char) : NoDigit (following closing l ++ r) := by
  cases l with
  | nil =>
    exact noDigit_cons hdigit r
  | cons t rest =>
    exact noDigit_cons (by decide) _

theorem following_append (hdigit : closing.isDigit = false) (hcomma : closing ≠ ',')
    {l l' : List α} (hl : ∀ x ∈ l, Readable P render x) (hl' : ∀ x ∈ l', P x) {r r' : List Char}
    (h : following closing (l.map render) ++ r = following closing (l'.map render) ++ r') :
    l = l' ∧ r = r' := by
  induction l generalizing l' with
  | nil =>
    cases l' with
    | nil =>
      simpa [following] using h
    | cons y l' =>
      simp only [List.map_nil, List.map_cons, following, List.cons_append,
        List.cons.injEq] at h
      exact absurd h.1 hcomma
  | cons x l ih =>
    cases l' with
    | nil =>
      simp only [List.map_nil, List.map_cons, following, List.cons_append,
        List.cons.injEq] at h
      exact absurd h.1.symm hcomma
    | cons y l' =>
      simp only [List.map_cons, following, List.cons_append, List.append_assoc,
        List.cons.injEq, true_and] at h
      obtain ⟨rfl, htail⟩ := hl x List.mem_cons_self y (hl' y List.mem_cons_self) _ _
        (noDigit_following hdigit _ _) (noDigit_following hdigit _ _) h
      obtain ⟨rfl, hrest⟩ := ih (fun x hx => hl x (List.mem_cons_of_mem _ hx))
        (fun x hx => hl' x (List.mem_cons_of_mem _ hx)) htail
      exact ⟨rfl, hrest⟩

theorem joined_append (hdigit : closing.isDigit = false) (hcomma : closing ≠ ',')
    (hopen : ∀ x, P x → ∀ r r', render x ++ r ≠ closing :: r')
    {l l' : List α} (hP : ∀ x ∈ l, P x) (hl : ∀ x ∈ l, Readable P render x) (hl' : ∀ x ∈ l', P x)
    {r r' : List Char}
    (h : joined closing (l.map render) ++ r = joined closing (l'.map render) ++ r') :
    l = l' ∧ r = r' := by
  cases l with
  | nil =>
    cases l' with
    | nil =>
      simpa [joined] using h
    | cons y l' =>
      simp only [List.map_nil, List.map_cons, joined, List.cons_append, List.nil_append,
        List.append_assoc] at h
      exact absurd h.symm (hopen y (hl' y List.mem_cons_self) _ _)
  | cons x l =>
    cases l' with
    | nil =>
      simp only [List.map_nil, List.map_cons, joined, List.cons_append, List.nil_append,
        List.append_assoc] at h
      exact absurd h (hopen x (hP x List.mem_cons_self) _ _)
    | cons y l' =>
      simp only [List.map_cons, joined, List.append_assoc] at h
      obtain ⟨rfl, htail⟩ := hl x List.mem_cons_self y (hl' y List.mem_cons_self) _ _
        (noDigit_following hdigit _ _) (noDigit_following hdigit _ _) h
      obtain ⟨rfl, hrest⟩ := following_append hdigit hcomma
        (fun x hx => hl x (List.mem_cons_of_mem _ hx))
        (fun x hx => hl' x (List.mem_cons_of_mem _ hx)) htail
      exact ⟨rfl, hrest⟩

end Joined

section Documents

variable {f : Format} {v w : Json}

/-- What the first character of a text tells. -/
def headKind (c : Char) : Nat :=
  if c = 'n' then 0
  else if c = 't' ∨ c = 'f' then 1
  else if c = '"' then 2
  else if c = '[' then 3
  else if c = '{' then 4
  else if c = ']' then 6
  else 5

def kind : Json → Nat
  | null => 0
  | bool _ => 1
  | string _ => 2
  | array _ => 3
  | object _ => 4
  | _ => 5

theorem kind_lt (v : Json) : v.kind < 6 := by
  unfold kind
  split <;> decide

theorem headKind_digit {c : Char} (h : c.isDigit = true) : headKind c = 5 := by
  unfold headKind
  split_ifs with h₁ h₂ h₃ h₄ h₅ h₆ <;> first
    | rfl
    | (subst c
       cases h)
    | (rcases h₂ with rfl | rfl <;> cases h)

theorem integerText_head (n : Int) :
    ∃ c rest, integerText n = c :: rest ∧ headKind c = 5 := by
  cases n with
  | ofNat n =>
    obtain ⟨c, rest, hc, hdigit⟩ := toDigits_head n
    exact ⟨c, rest, hc, headKind_digit hdigit⟩
  | negSucc n =>
    exact ⟨'-', _, rfl, by decide⟩

theorem text_head (hv : v.Proper) : ∃ c rest, text f v = c :: rest ∧ headKind c = v.kind := by
  cases hv with
  | null =>
    exact ⟨_, _, rfl, by decide⟩
  | bool b =>
    cases b with
    | true =>
      exact ⟨_, _, rfl, by decide⟩
    | false =>
      exact ⟨_, _, rfl, by decide⟩
  | integer n =>
    exact integerText_head n
  | string s =>
    exact ⟨'"', _, rfl, rfl⟩
  | array _ =>
    exact ⟨'[', _, rfl, rfl⟩
  | object _ _ =>
    exact ⟨'{', _, rfl, rfl⟩

theorem kind_eq_of_text (hv : v.Proper) (hw : w.Proper) {r r' : List Char}
    (h : text f v ++ r = text f w ++ r') : v.kind = w.kind := by
  obtain ⟨c, rest, hc, hkind⟩ := text_head (f := f) hv
  obtain ⟨d, rest', hd, hkind'⟩ := text_head (f := f) hw
  rw [hc, hd, List.cons_append, List.cons_append, List.cons.injEq] at h
  rw [← hkind, ← hkind', h.1]

theorem text_ne_closing (hv : v.Proper) (r r' : List Char) : text f v ++ r ≠ ']' :: r' := by
  intro h
  obtain ⟨c, rest, hc, hkind⟩ := text_head (f := f) hv
  rw [hc, List.cons_append, List.cons.injEq] at h
  have hlt := kind_lt v
  rw [← hkind, h.1] at hlt
  exact absurd hlt (by decide)

theorem readable_field {key : String} (hv : Readable Proper (text f) v) :
    Readable (fun e => e.2.Proper) (fun e => quote f.ascii e.1 ++ ':' :: text f e.2) (key, v) := by
  intro e he r r' hr hr' h
  simp only [List.append_assoc, List.cons_append] at h
  obtain ⟨hkey, htail⟩ := quote_append h
  obtain ⟨hvalue, hrest⟩ := hv e.2 he r r' hr hr' (List.cons.inj htail).2
  exact ⟨Prod.ext hkey hvalue, hrest⟩

theorem eq_integer_of_kind (hw : w.Proper) (h : w.kind = 5) : ∃ n, w = integer n := by
  cases hw with
  | integer n =>
    exact ⟨n, rfl⟩
  | _ =>
    cases h

theorem text_array (items : List Json) :
    text f (array items) = '[' :: joined ']' (items.map (text f)) := by
  rw [text, itemTexts_eq_map]

theorem text_object (fields : List (String × Json)) :
    text f (object fields) =
      '{' :: joined '}' (fields.map fun e => quote f.ascii e.1 ++ ':' :: text f e.2) := by
  rw [text, fieldTexts_eq_map]

/-- The text of a proper document is read off the front. -/
theorem readable_text (hv : v.Proper) : Readable Proper (text f) v := by
  induction hv with
  | null =>
    intro w hw r r' hr hr' h
    have hkind := kind_eq_of_text .null hw h
    cases hw with
    | null =>
      exact ⟨rfl, List.append_cancel_left h⟩
    | _ =>
      cases hkind
  | bool b =>
    intro w hw r r' hr hr' h
    have hkind := kind_eq_of_text (.bool b) hw h
    cases hw with
    | bool b' =>
      cases b <;> cases b' <;> simp_all [text]
    | _ =>
      cases hkind
  | integer n =>
    intro w hw r r' hr hr' h
    obtain ⟨m, rfl⟩ := eq_integer_of_kind hw (kind_eq_of_text (.integer n) hw h).symm
    obtain ⟨rfl, hrest⟩ := integerText_append hr hr' h
    exact ⟨rfl, hrest⟩
  | string s =>
    intro w hw r r' hr hr' h
    have hkind := kind_eq_of_text (.string s) hw h
    cases hw with
    | string t =>
      obtain ⟨rfl, hrest⟩ := quote_append h
      exact ⟨rfl, hrest⟩
    | _ =>
      cases hkind
  | array hitems ih =>
    intro w hw r r' hr hr' h
    have hkind := kind_eq_of_text (.array hitems) hw h
    cases hw with
    | array hitems' =>
      rw [text_array, text_array, List.cons_append, List.cons_append] at h
      obtain ⟨rfl, hrest⟩ := joined_append (by decide) (by decide)
        (fun x hx => text_ne_closing hx) hitems ih hitems' (List.cons.inj h).2
      exact ⟨rfl, hrest⟩
    | _ =>
      cases hkind
  | object hkeys hvalues ih =>
    intro w hw r r' hr hr' h
    have hkind := kind_eq_of_text (.object hkeys hvalues) hw h
    cases hw with
    | object hkeys' hvalues' =>
      rw [text_object, text_object, List.cons_append, List.cons_append] at h
      obtain ⟨rfl, hrest⟩ := joined_append (by decide) (by decide)
        (fun x _ r r' hx => absurd (List.cons.inj hx).1 (by decide)) hvalues
        (fun e he => readable_field (ih e he)) hvalues' (List.cons.inj h).2
      exact ⟨rfl, hrest⟩
    | _ =>
      cases hkind

theorem text_injective (hv : v.Proper) (hw : w.Proper) (h : text f v = text f w) : v = w :=
  (readable_text hv w hw [] [] noDigit_nil noDigit_nil (by rw [h])).1

end Documents

/-! ## Sorted documents -/

section Fields

variable {α β : Type*} {l l' : List (String × α)}

theorem lookup_cons (e : String × α) (l : List (String × α)) (key : String) :
    (e :: l).lookup key = if key = e.1 then some e.2 else l.lookup key := by
  obtain ⟨name, value⟩ := e
  by_cases h : key = name
  · simp [h]
  · have hbeq : (key == name) = false := by simpa using h
    simp [List.lookup_cons, hbeq, h]

theorem isSome_lookup (l : List (String × α)) (key : String) :
    (l.lookup key).isSome ↔ key ∈ l.map Prod.fst := by
  induction l with
  | nil =>
    simp
  | cons e rest ih =>
    rw [lookup_cons, List.map_cons, List.mem_cons]
    split_ifs with h
    · simp [h]
    · rw [ih]
      simp [h]

theorem mem_iff_lookup (hl : (l.map Prod.fst).Nodup) (key : String) (x : α) :
    (key, x) ∈ l ↔ l.lookup key = some x := by
  induction l with
  | nil =>
    simp
  | cons e l ih =>
    rw [List.map_cons, List.nodup_cons] at hl
    rw [lookup_cons, List.mem_cons]
    split
    · rename_i hkey
      subst hkey
      have hnot : (e.1, x) ∉ l := fun h => hl.1 (List.mem_map.mpr ⟨_, h, rfl⟩)
      simp [hnot, Prod.ext_iff, eq_comm]
    · rename_i hkey
      rw [← ih hl.2]
      simp [Prod.ext_iff, hkey]

theorem lookup_map (g : α → β) (l : List (String × α)) (key : String) :
    (l.map fun e => (e.1, g e.2)).lookup key = (l.lookup key).map g := by
  induction l with
  | nil =>
    rfl
  | cons e l ih =>
    rw [List.map_cons, lookup_cons, lookup_cons, ih]
    split <;> rfl

theorem nodup_of_keys (hl : (l.map Prod.fst).Nodup) : l.Nodup := hl.of_map _

theorem perm_iff_lookup (hl : (l.map Prod.fst).Nodup) (hl' : (l'.map Prod.fst).Nodup) :
    l.Perm l' ↔ ∀ key, l.lookup key = l'.lookup key := by
  rw [List.perm_ext_iff_of_nodup (nodup_of_keys hl) (nodup_of_keys hl')]
  constructor
  · intro h key
    refine Option.ext fun x => ?_
    rw [← mem_iff_lookup hl, ← mem_iff_lookup hl', h]
  · rintro h ⟨key, x⟩
    rw [mem_iff_lookup hl, mem_iff_lookup hl', h]

/-- The fields in the order of their keys tell the same as what is found under each key. -/
theorem insertionSort_eq_iff (hl : (l.map Prod.fst).Nodup) (hl' : (l'.map Prod.fst).Nodup) :
    l.insertionSort (fun a b => a.1 ≤ b.1) = l'.insertionSort (fun a b => a.1 ≤ b.1) ↔
      ∀ key, l.lookup key = l'.lookup key := by
  rw [← perm_iff_lookup hl hl']
  refine Lib.insertionSort_key_eq_iff fun a ha b hb hkey => ?_
  exact List.inj_on_of_nodup_map hl ha hb hkey

end Fields

section Sorted

variable {v w : Json} {fields fields' : List (String × Json)}

theorem keys_sortFields (fields : List (String × Json)) :
    (sortFields fields).map Prod.fst = fields.map Prod.fst := by
  rw [sortFields_eq_map, List.map_map]
  rfl

theorem lookup_sortFields (fields : List (String × Json)) (key : String) :
    (sortFields fields).lookup key = (fields.lookup key).map sortKeys := by
  rw [sortFields_eq_map]
  exact lookup_map sortKeys fields key

theorem sortKeys_array (items : List Json) :
    sortKeys (array items) = array (items.map sortKeys) := by
  rw [sortKeys, sortItems_eq_map]

/-- Objects are the same up to the order of the fields when they have the same under each key. -/
theorem sortKeys_object_eq_iff (h : (fields.map Prod.fst).Nodup)
    (h' : (fields'.map Prod.fst).Nodup) :
    sortKeys (object fields) = sortKeys (object fields') ↔
      ∀ key, (fields.lookup key).map sortKeys = (fields'.lookup key).map sortKeys := by
  rw [← keys_sortFields] at h h'
  simp only [sortKeys, object.injEq, ← lookup_sortFields]
  exact insertionSort_eq_iff h h'

/-- Objects with the same keys in the same order are compared field by field. -/
theorem sortKeys_eq_iff_of_keys {fields fields' : List (String × Json)}
    (hkeys : (fields.map Prod.fst).Nodup) (hsame : fields.map Prod.fst = fields'.map Prod.fst) :
    sortKeys (object fields) = sortKeys (object fields') ↔
      fields.map (fun e => e.2.sortKeys) = fields'.map fun e => e.2.sortKeys := by
  rw [sortKeys_object_eq_iff hkeys (hsame ▸ hkeys)]
  induction fields generalizing fields' with
  | nil =>
    rw [List.map_eq_nil_iff.mp hsame.symm]
    simp
  | cons e rest ih =>
    cases fields' with
    | nil =>
      cases hsame
    | cons e' rest' =>
      rw [List.map_cons, List.map_cons, List.cons.injEq] at hsame
      rw [List.map_cons, List.nodup_cons] at hkeys
      rw [List.map_cons, List.map_cons, List.cons.injEq, ← ih hkeys.2 hsame.2]
      have hnone : ∀ l : List (String × Json), e.1 ∉ l.map Prod.fst → l.lookup e.1 = none := by
        intro l hnot
        rw [← isSome_lookup] at hnot
        exact Option.not_isSome_iff_eq_none.mp hnot
      constructor
      · intro h
        refine ⟨?_, fun key => ?_⟩
        · have hhead := h e.1
          rw [lookup_cons, lookup_cons, if_pos rfl, if_pos hsame.1] at hhead
          simpa using hhead
        · by_cases hkey : key = e.1
          · rw [hkey, hnone rest hkeys.1, hnone rest' (hsame.2 ▸ hkeys.1)]
          have htail := h key
          rw [lookup_cons, lookup_cons, if_neg hkey,
            if_neg fun heq => hkey (heq.trans hsame.1.symm)] at htail
          exact htail
      · rintro ⟨hhead, htail⟩ key
        rw [lookup_cons, lookup_cons, hsame.1]
        split_ifs
        · simp [hhead]
        · exact htail key

theorem Proper.sortKeys (hv : v.Proper) : v.sortKeys.Proper := by
  induction hv with
  | null =>
    exact .null
  | bool b =>
    exact .bool b
  | integer n =>
    exact .integer n
  | string s =>
    exact .string s
  | array hitems ih =>
    rw [sortKeys_array]
    refine .array fun v hv => ?_
    obtain ⟨u, hu, rfl⟩ := List.mem_map.mp hv
    exact ih u hu
  | @object fields hkeys hvalues ih =>
    have hperm := List.perm_insertionSort (fun a b => a.1 ≤ b.1) (sortFields fields)
    refine .object ?_ fun e he => ?_
    · rw [(hperm.map Prod.fst).nodup_iff, keys_sortFields]
      exact hkeys
    · rw [hperm.mem_iff, sortFields_eq_map] at he
      obtain ⟨u, hu, rfl⟩ := List.mem_map.mp he
      exact ih u hu

/-- Two proper documents have the same text exactly when they are the same up to the order of
their fields. -/
theorem dumps_eq_iff {f : Format} (hv : v.Proper) (hw : w.Proper) :
    dumps f v = dumps f w ↔ v.sortKeys = w.sortKeys := by
  constructor
  · intro h
    exact text_injective hv.sortKeys hw.sortKeys (String.ofList_injective h)
  · intro h
    rw [dumps, dumps, h]

end Sorted

end Json
end PrismServe
