import BehaviorMachine.Json.Reader
import BehaviorMachine.Proofs.Json.Number

/-!
# Tokens of written text

`Lexes` tells what tokens a text has, without the bound that the scanner counts down. Written values
have the tokens that their structure gives (`spells_write`, `spells_indented`), so the layouts of a
document differ in blanks only.
-/
namespace BehaviorMachine.Json

open Token

inductive Lexes : List Char → List Token → Prop where
  | nil : Lexes [] []
  | blank {c : Char} {rest : List Char} {tokens : List Token} (hc : Token.isBlank c = true)
      (hr : Lexes rest tokens) : Lexes (c :: rest) tokens
  | token {c : Char} {rest rest' : List Char} {t : Token} {tokens : List Token}
      (hc : Token.isBlank c = false) (ht : next? (c :: rest) = some (t,rest'))
      (hl : rest'.length ≤ rest.length) (hr : Lexes rest' tokens) : Lexes (c :: rest) (t :: tokens)

theorem Lexes.scan {text : List Char} {tokens : List Token} (hl : Lexes text tokens) {fuel : Nat}
    (hf : text.length ≤ fuel) (found : List Token) :
    Token.scan fuel text found = some (found.reverse ++ tokens) := by
  induction hl generalizing fuel found with
  | nil => rw [Token.scan,List.append_nil]
  | blank hc hr ih =>
    obtain ⟨fuel,rfl⟩ := Nat.exists_eq_add_one_of_ne_zero (Nat.ne_zero_of_lt hf)
    rw [Token.scan,if_pos hc]
    exact ih (Nat.le_of_succ_le_succ hf) found
  | @token c rest rest' t tokens hc ht hl hr ih =>
    obtain ⟨fuel,rfl⟩ := Nat.exists_eq_add_one_of_ne_zero (Nat.ne_zero_of_lt hf)
    have hle : rest'.length ≤ fuel := Nat.le_trans hl (Nat.le_of_succ_le_succ hf)
    rw [Token.scan,if_neg (by simp [hc])]
    simp only [ht]
    rw [ih hle,List.reverse_cons,List.append_assoc]
    rfl

/-- A part of a text has its own tokens wherever no number can go on after it. -/
def Spells (part : List Char) (tokens : List Token) : Prop :=
  ∀ rest more, Ends rest → Lexes rest more → Lexes (part ++ rest) (tokens ++ more)

def Stops (part : List Char) : Prop := ∀ rest, Ends rest → Ends (part ++ rest)

theorem spells_nil : Spells [] [] :=
  fun _ _ _ hl => hl

theorem Spells.append {first last : List Char} {ts us : List Token} (hf : Spells first ts)
    (hl : Spells last us) (hs : Stops last) : Spells (first ++ last) (ts ++ us) := by
  intro rest more he hr
  rw [List.append_assoc,List.append_assoc]
  exact hf _ _ (hs rest he) (hl rest more he hr)

theorem stops_cons {c : Char} {part : List Char} (hd : isDigit c = false) (hp : c ≠ '.')
    (he : c ≠ 'e') (hE : c ≠ 'E') : Stops (c :: part) :=
  fun _ _ => ends_cons hd hp he hE

/-- A part of a text has its own tokens whatever follows. -/
def Marks (part : List Char) (tokens : List Token) : Prop :=
  ∀ rest more, Lexes rest more → Lexes (part ++ rest) (tokens ++ more)

theorem Marks.spells {part : List Char} {ts : List Token} (hm : Marks part ts) : Spells part ts :=
  fun rest more _ hr => hm rest more hr

theorem Marks.append {first last : List Char} {ts us : List Token} (hf : Marks first ts)
    (hl : Marks last us) : Marks (first ++ last) (ts ++ us) := by
  intro rest more hr
  rw [List.append_assoc,List.append_assoc]
  exact hf _ _ (hl rest more hr)

theorem Marks.before {first last : List Char} {ts us : List Token} (hf : Marks first ts)
    (hl : Spells last us) : Spells (first ++ last) (ts ++ us) := by
  intro rest more he hr
  rw [List.append_assoc,List.append_assoc]
  exact hf _ _ (hl rest more he hr)

theorem marks_blanks {blanks : List Char} (hb : ∀ c ∈ blanks, Token.isBlank c = true) :
    Marks blanks [] := by
  intro rest more hr
  induction blanks with
  | nil => exact hr
  | cons c blanks ih =>
    have hrest := ih fun c hc => hb c (List.mem_cons_of_mem _ hc)
    exact .blank (hb c List.mem_cons_self) hrest

theorem marks_single {c : Char} {t : Token} (hc : Token.isBlank c = false)
    (ht : ∀ rest, next? (c :: rest) = some (t,rest)) : Marks [c] [t] :=
  fun rest _ hr => .token hc (ht rest) (Nat.le_refl rest.length) hr

theorem spells_token {c : Char} {part : List Char} {t : Token} (hc : Token.isBlank c = false)
    (ht : ∀ rest, Ends rest → next? (c :: (part ++ rest)) = some (t,rest)) :
    Spells (c :: part) [t] := by
  intro rest more he hr
  have hl : rest.length ≤ (part ++ rest).length := by
    rw [List.length_append]
    exact Nat.le_add_left _ _
  exact .token hc (ht rest he) hl hr

theorem digit_notBlank {c : Char} (hc : isDigit c = true) : Token.isBlank c = false := by
  obtain ⟨hl,-⟩ := isDigit_iff.mp hc
  have hne (d : Char) (hd : d.toNat < 48) : c ≠ d := by
    rintro rfl
    omega
  simp [Token.isBlank,hne ' ' (by decide),hne '\n' (by decide),hne '\t' (by decide),
    hne '\r' (by decide)]

theorem next?_digit {c : Char} (hc : isDigit c = true) (rest : List Char) :
    next? (c :: rest) = (number? false (c :: rest)).map fun (v,rest) => (.scalar v,rest) := by
  rw [next?.eq_def]
  split
  case h_12 => rfl
  all_goals
    next heq =>
      obtain ⟨rfl,-⟩ := List.cons.inj heq
      exact absurd hc (by decide)

theorem spells_digits {text : List Char} {v : Json} (hd : ∃ c rest, text = c :: rest ∧ isDigit c = true)
    (hv : ∀ rest, Ends rest → number? false (text ++ rest) = some (v,rest)) :
    Spells text [.scalar v] := by
  obtain ⟨c,part,rfl,hc⟩ := hd
  apply spells_token (digit_notBlank hc)
  intro rest he
  rw [next?_digit hc,← List.cons_append,hv rest he]
  rfl

theorem spells_minus {text : List Char} {v : Json}
    (hv : ∀ rest, Ends rest → number? true (text ++ rest) = some (v,rest)) :
    Spells ('-' :: text) [.scalar v] := by
  apply spells_token (by decide)
  intro rest he
  have hnext : next? ('-' :: (text ++ rest)) =
      (number? true (text ++ rest)).map fun (v,rest) => (.scalar v,rest) := rfl
  rw [hnext,hv rest he]
  rfl

theorem toDigits_head (n : Nat) : ∃ c rest, Nat.toDigits 10 n = c :: rest ∧ isDigit c = true := by
  obtain ⟨c,rest,he⟩ := List.exists_cons_of_ne_nil (Nat.toDigits_ne_nil (n := n) (b := 10))
  have hd := allDigits_toDigits n
  rw [he] at hd
  exact ⟨c,rest,he,hd c List.mem_cons_self⟩

theorem magnitude_head (layout : NumberLayout) (rank : Nat) :
    ∃ c rest, layout.magnitude rank = c :: rest ∧ isDigit c = true := by
  obtain ⟨n,hn,ht,-⟩ := layout.magnitude_numeral rank
  obtain ⟨c,digits,he⟩ := List.exists_cons_of_ne_nil hn.nonempty
  have hd := hn.whole
  rw [he] at hd
  rw [ht,Numeral.text,he]
  exact ⟨c,_,rfl,hd c List.mem_cons_self⟩

theorem spells_number (n : Number) : Spells (n.write documentNumbers) [.scalar (.number n)] := by
  cases n with
  | natural n => exact spells_digits (toDigits_head n.toNat) fun rest he => number?_natural n he
  | negative n => exact spells_minus fun rest he => number?_negative n he
  | real x =>
    rcases x with ⟨negative,rank,h⟩
    cases negative with
    | false =>
      have htext : Number.write documentNumbers (.real ⟨false,rank,h⟩) =
          documentNumbers.magnitude rank := by
        simp [Number.write,NumberLayout.text]
      rw [htext]
      exact spells_digits (magnitude_head documentNumbers rank) fun rest he =>
        number?_magnitude false rfl h he
    | true =>
      have htext : Number.write documentNumbers (.real ⟨true,rank,h⟩) =
          '-' :: documentNumbers.magnitude rank := by
        simp [Number.write,NumberLayout.text,documentNumbers]
      rw [htext]
      exact spells_minus fun rest he => number?_magnitude true rfl h he

theorem hexNumeral?_control {n : Nat} (hn : n < 0x20) :
    hexNumeral? ['0','0',hexDigit (n / 16),hexDigit (n % 16)] = some n := by
  have hall : ∀ n < 0x20, hexNumeral? ['0','0',hexDigit (n / 16),hexDigit (n % 16)] = some n := by
    decide
  exact hall n hn

theorem pieces?_writeChar (c : Char) (rest : List Char) (found : List Piece) :
    pieces? (writeChar c ++ rest) found = pieces? rest (.char c :: found) := by
  unfold writeChar
  split
  case h_8 hquote hslash _ _ _ _ _ =>
    split
    · next hlt =>
      have hcode : Piece.ofCode c.toNat = .char c := by
        rw [Piece.ofCode,if_neg (by omega),if_neg (by omega),Char.ofNat_toNat]
      simp only [List.cons_append,List.nil_append,pieces?,hexNumeral?_control hlt,hcode]
    · next hge =>
      rw [List.singleton_append,pieces?.eq_def]
      split
      · next heq => exact absurd (List.cons.inj heq).1 hquote
      · next heq => exact absurd (List.cons.inj heq).1 hslash
      · next heq => exact absurd (List.cons.inj heq).1 hslash
      · next heq =>
        obtain ⟨rfl,rfl⟩ := List.cons.inj heq
        rw [if_neg (not_or.mpr ⟨hge,hslash⟩)]
      · next heq => cases heq
  all_goals rfl

theorem pieces?_text (text rest : List Char) (found : List Piece) :
    pieces? (text.flatMap writeChar ++ '"' :: rest) found =
      some (found.reverse ++ text.map .char,rest) := by
  induction text generalizing found with
  | nil =>
    rw [List.map_nil,List.append_nil]
    rfl
  | cons c text ih =>
    rw [List.flatMap_cons,List.append_assoc,pieces?_writeChar,ih,List.reverse_cons,List.append_assoc,
      List.map_cons]
    rfl

theorem join_chars (text found : List Char) :
    join (text.map .char) found = some (found.reverse ++ text) := by
  induction text generalizing found with
  | nil =>
    rw [List.append_nil]
    rfl
  | cons c text ih =>
    rw [List.map_cons,join,ih,List.reverse_cons,List.append_assoc]
    rfl

theorem spells_string (s : String) : Spells (writeString s) [.literal (some s)] := by
  have htext : writeString s = '"' :: (s.toList.flatMap writeChar ++ ['"']) := rfl
  rw [htext]
  apply spells_token (by decide)
  intro rest he
  have hpieces := pieces?_text s.toList rest []
  have hnext : next? ('"' :: (s.toList.flatMap writeChar ++ ['"'] ++ rest)) =
      (pieces? (s.toList.flatMap writeChar ++ ['"'] ++ rest) []).bind fun found =>
        some (.literal ((join found.1 []).map String.ofList),found.2) := rfl
  rw [hnext,List.append_assoc,List.singleton_append,hpieces,Option.bind_some]
  simp only [List.reverse_nil,List.nil_append,join_chars,Option.map_some,String.ofList_toList]

def leafTokens : Json → List Token
  | .string s => [.literal (some s)]
  | .array _ => [.literal none]
  | .object _ => [.literal none]
  | .unreadable => [.literal none]
  | v => [.scalar v]

theorem spells_leaf (v : Json) : Spells (writeLeaf documentNumbers v) (leafTokens v) := by
  have hhalf : Spells ['"','\\','u','d','8','0','0','"'] [.literal none] :=
    spells_token (by decide) fun rest _ => rfl
  cases v with
  | null => exact spells_token (by decide) fun rest _ => rfl
  | bool b => cases b <;> exact spells_token (by decide) fun rest _ => rfl
  | number n => exact spells_number n
  | string s => exact spells_string s
  | array items => exact hhalf
  | object members => exact hhalf
  | unreadable => exact hhalf

def commaTokens : List (List Token) → List Token
  | [] => []
  | [part] => part
  | part :: rest => part ++ .comma :: commaTokens rest

mutual

def tokens : Json → List Token
  | .array items => .beginArray :: commaTokens (itemTokens items) ++ [.endArray]
  | .object members => .beginObject :: commaTokens (memberTokens members) ++ [.endObject]
  | leaf => leafTokens leaf

def itemTokens : List Json → List (List Token)
  | [] => []
  | v :: rest => tokens v :: itemTokens rest

def memberTokens : List (String × Json) → List (List Token)
  | [] => []
  | (n,v) :: rest => (.literal (some n) :: .colon :: tokens v) :: memberTokens rest

end

theorem marks_comma {blanks : List Char} (hb : ∀ c ∈ blanks, Token.isBlank c = true) :
    Marks (',' :: blanks) [.comma] :=
  (marks_single (by decide) fun _ => rfl).append (marks_blanks hb)

theorem spells_separated {blanks : List Char} (hb : ∀ c ∈ blanks, Token.isBlank c = true)
    {parts : List (List Char)} {ts : List (List Token)} (hp : List.Forall₂ Spells parts ts) :
    Spells (separated (',' :: blanks) parts) (commaTokens ts) := by
  induction hp with
  | nil => exact spells_nil
  | @cons part t parts ts hpart hrest ih =>
    cases hrest with
    | nil => exact hpart
    | cons hnext hrest =>
      rw [separated,commaTokens,List.append_assoc]
      · have hlast := (marks_comma hb).before ih
        exact hpart.append hlast (stops_cons (by decide) (by decide) (by decide) (by decide))
      · simp
      · simp

theorem spells_line {opening closing : Char} {first last : Token} (hf : Marks [opening] [first])
    (hl : Marks [closing] [last]) (hs : Stops [closing]) {parts : List (List Char)}
    {ts : List (List Token)} (hp : List.Forall₂ Spells parts ts) :
    Spells (opening :: separated [','] parts ++ [closing]) (first :: commaTokens ts ++ [last]) :=
  (hf.before (spells_separated (by simp) hp)).append hl.spells hs

theorem newline_blank (level : Nat) : ∀ c ∈ newline level, Token.isBlank c = true := by
  intro c hc
  rcases List.mem_cons.mp hc with rfl | hc
  · rfl
  · rw [List.eq_of_mem_replicate hc]
    rfl

theorem spells_block {opening closing : Char} {first last : Token} (level : Nat)
    (hf : Marks [opening] [first]) (hl : Marks [closing] [last]) {parts : List (List Char)}
    {ts : List (List Token)} (hp : List.Forall₂ Spells parts ts) :
    Spells (block opening closing level parts) (first :: commaTokens ts ++ [last]) := by
  rw [block]
  cases hp with
  | nil => exact (hf.append hl).spells
  | cons hpart hrest =>
    have hparts := spells_separated (newline_blank (level + 1)) (.cons hpart hrest)
    have hend := (marks_blanks (newline_blank level)).append hl
    have hbegin := hf.append (marks_blanks (newline_blank (level + 1)))
    have hwhole := (hbegin.before hparts).append hend.spells
      (stops_cons (by decide) (by decide) (by decide) (by decide))
    simp only [List.isEmpty_cons,Bool.false_eq_true,if_false]
    simpa only [List.append_assoc,List.cons_append,List.nil_append] using hwhole

theorem marks_bracket : Marks ['['] [.beginArray] ∧ Marks [']'] [.endArray] :=
  ⟨marks_single (by decide) fun _ => rfl,marks_single (by decide) fun _ => rfl⟩

theorem marks_brace : Marks ['{'] [.beginObject] ∧ Marks ['}'] [.endObject] :=
  ⟨marks_single (by decide) fun _ => rfl,marks_single (by decide) fun _ => rfl⟩

theorem spells_member (n : String) (blanks : List Char) {text : List Char} {ts : List Token}
    (hb : ∀ c ∈ blanks, Token.isBlank c = true) (ht : Spells text ts) :
    Spells (writeString n ++ ':' :: (blanks ++ text)) (.literal (some n) :: .colon :: ts) := by
  have hcolon : Marks [':'] [.colon] := marks_single (by decide) fun _ => rfl
  have hvalue := (hcolon.append (marks_blanks hb)).before ht
  rw [List.append_assoc] at hvalue
  exact (spells_string n).append hvalue (stops_cons (by decide) (by decide) (by decide) (by decide))

theorem stops_bracket : Stops [']'] := stops_cons (by decide) (by decide) (by decide) (by decide)

theorem stops_brace : Stops ['}'] := stops_cons (by decide) (by decide) (by decide) (by decide)

mutual

/-- A value on one line. -/
theorem spells_write : (v : Json) → Spells v.write (tokens v)
  | .array items => spells_line marks_bracket.1 marks_bracket.2 stops_bracket (spells_writeItems items)
  | .object members => spells_line marks_brace.1 marks_brace.2 stops_brace (spells_writeMembers members)
  | .null => spells_leaf .null
  | .bool b => spells_leaf (.bool b)
  | .number n => spells_leaf (.number n)
  | .string s => spells_leaf (.string s)
  | .unreadable => spells_leaf .unreadable

theorem spells_writeItems : (items : List Json) →
    List.Forall₂ Spells (writeItems items) (itemTokens items)
  | [] => .nil
  | v :: rest => .cons (spells_write v) (spells_writeItems rest)

theorem spells_writeMembers : (members : List (String × Json)) →
    List.Forall₂ Spells (writeMembers members) (memberTokens members)
  | [] => .nil
  | (n,v) :: rest =>
    .cons (spells_member n [] (by simp) (spells_write v)) (spells_writeMembers rest)

end

mutual

/-- A value with one part a line. -/
theorem spells_indented : (level : Nat) → (v : Json) → Spells (v.indented level) (tokens v)
  | level, .array items =>
    spells_block level marks_bracket.1 marks_bracket.2 (spells_indentedItems (level + 1) items)
  | level, .object members =>
    spells_block level marks_brace.1 marks_brace.2 (spells_indentedMembers (level + 1) members)
  | _, .null => spells_leaf .null
  | _, .bool b => spells_leaf (.bool b)
  | _, .number n => spells_leaf (.number n)
  | _, .string s => spells_leaf (.string s)
  | _, .unreadable => spells_leaf .unreadable

theorem spells_indentedItems : (level : Nat) → (items : List Json) →
    List.Forall₂ Spells (indentedItems level items) (itemTokens items)
  | _, [] => .nil
  | level, v :: rest => .cons (spells_indented level v) (spells_indentedItems level rest)

theorem spells_indentedMembers : (level : Nat) → (members : List (String × Json)) →
    List.Forall₂ Spells (indentedMembers level members) (memberTokens members)
  | _, [] => .nil
  | level, (n,v) :: rest =>
    .cons (spells_member n [' '] (List.forall_mem_singleton.mpr rfl) (spells_indented level v))
      (spells_indentedMembers level rest)

end

theorem scan_of_spells {text : List Char} {ts : List Token} (hs : Spells text ts) :
    Token.scan text.length text [] = some ts := by
  have hl := hs [] [] ends_nil .nil
  rw [List.append_nil,List.append_nil] at hl
  exact hl.scan (Nat.le_refl _) []

end BehaviorMachine.Json
