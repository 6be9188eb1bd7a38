import UiCodegen.Interpreter.Output
import UiCodegen.Proofs.CLiterals
import UiCodegen.Proofs.LosslessEncoding

/-!
# What embedding keeps

A document that is compiled in is cut into pieces of a fixed width, wherever the cuts fall, and each
piece becomes a C string literal.  Read as C, the literals denote the compact text of the document.
The text holds no octet that would end a C string early, and the document is read from it as it is.
-/

namespace UiCodegen

variable {s text : Bytes} {ps : List Bytes} {first : Bool} {behind : Bytes} {b : UInt8}
  {state : NumberState}

namespace Document.Json

/-! ## Texts without control characters -/

def NoControl (s : Bytes) : Prop := ∀ b ∈ s, 0x20 ≤ b

lemma noControl_append {t : Bytes} : NoControl (s ++ t) ↔ NoControl s ∧ NoControl t :=
  List.forall_mem_append

lemma noControl_cons : NoControl (b :: s) ↔ 0x20 ≤ b ∧ NoControl s := List.forall_mem_cons

/-- An octet is no control character if it has something that none of these has. -/
lemma le_of_forall_control (P : UInt8 → Prop) (h : ∀ n < 32, ¬ P (UInt8.ofNat n)) (hb : P b) :
    0x20 ≤ b := by
  by_contra hlt
  rw [UInt8.not_le, UInt8.lt_iff_toNat_lt] at hlt
  refine h b.toNat hlt ?_
  rwa [UInt8.ofNat_toNat]

lemma Inside.noControl (h : Inside s) : NoControl s := by
  induction h with
  | nil => simp [NoControl]
  | plain _ _ hcontrol _ ih => exact noControl_cons.2 ⟨hcontrol, ih⟩
  | @escape e rest he _ ih =>
    have hcontrol : ∀ n < 32, ¬ UInt8.ofNat n ∈ escapeOctets := by decide
    exact noControl_cons.2
      ⟨by decide, noControl_cons.2 ⟨le_of_forall_control (· ∈ escapeOctets) hcontrol he, ih⟩⟩
  | @hex a b c d rest hdigits _ ih =>
    have hcontrol : ∀ n < 32, ¬ isHexDigit (UInt8.ofNat n) = true := by decide
    have hfour : NoControl [a, b, c, d] :=
      fun x hx => le_of_forall_control (isHexDigit ·) hcontrol (hdigits x hx)
    exact noControl_cons.2 ⟨by decide, noControl_cons.2 ⟨by decide, noControl_append.2 ⟨hfour, ih⟩⟩⟩

lemma le_of_step? {next : NumberState} {c : UInt8} (h : state.step? c = some next) : 0x20 ≤ c := by
  have hcontrol : ∀ n < 32, ¬ state.step? (UInt8.ofNat n) = some next := by
    have hnone : ∀ n < 32, state.step? (UInt8.ofNat n) = none := by
      cases state <;> decide
    simp +contextual [hnone]
  exact le_of_forall_control (state.step? · = some next) hcontrol h

lemma noControl_of_scanNumber {n m : Nat} (h : scanNumber state n s = .ok (m, [])) :
    NoControl s := by
  fun_induction scanNumber state n s with
  | case1 => simp [NoControl]
  | case2 => cases h
  | case3 state n c rest next hnext ih => exact noControl_cons.2 ⟨le_of_step? hnext, ih h⟩
  | case4 | case5 => cases h

lemma noControl_of_isNumber {literal : Bytes} (h : isNumber literal = true) :
    NoControl literal := by
  cases literal with
  | nil => simp [NoControl]
  | cons c rest =>
    obtain ⟨state, n, hstart, hscan⟩ := isNumber_cons.1 h
    have hcontrol : ∀ n < 32, ¬ numberStart? (UInt8.ofNat n) = some state := by
      have hnone : ∀ n < 32, numberStart? (UInt8.ofNat n) = none := by decide
      simp +contextual [hnone]
    exact noControl_cons.2 ⟨le_of_forall_control (numberStart? · = some state) hcontrol hstart,
      noControl_of_scanNumber hscan⟩

lemma noControl_encodeString (h : Utf8.IsText text) : NoControl (encodeString false text) := by
  have happend := encodeString_append text []
  rw [List.append_nil] at happend
  rw [happend]
  exact noControl_cons.2
    ⟨by decide, noControl_append.2 ⟨(spells_escaped h).inside.noControl, by simp [NoControl]⟩⟩

def WritesNoControl (v : Value) : Prop :=
  ∀ {behind text : Bytes}, encodeBefore? v behind = some text → NoControl behind → NoControl text

lemma noControl_encodeItems? {items : List Value} (hitems : ∀ v ∈ items, WritesNoControl v)
    (htext : encodeItems? first items behind = some text) (hbehind : NoControl behind) :
    NoControl text := by
  induction items generalizing first text with
  | nil =>
    cases htext
    exact hbehind
  | cons v rest ih =>
    obtain ⟨hv, hrest⟩ := List.forall_mem_cons.1 hitems
    obtain ⟨tail, htail, vtext, hvtext, rfl⟩ := encodeItems?_cons_eq_some.1 htext
    have hvfree := hv hvtext (ih hrest htail)
    split
    · exact hvfree
    · exact noControl_cons.2 ⟨by decide, hvfree⟩

lemma noControl_encodeFields? {pairs : Fields} (hkeys : ∀ pair ∈ pairs, Utf8.IsText pair.1)
    (hvalues : ∀ pair ∈ pairs, WritesNoControl pair.2)
    (htext : encodeFields? first pairs behind = some text) (hbehind : NoControl behind) :
    NoControl text := by
  induction pairs generalizing first text with
  | nil =>
    cases htext
    exact hbehind
  | cons pair rest ih =>
    obtain ⟨hkey, hrestKeys⟩ := List.forall_mem_cons.1 hkeys
    obtain ⟨hv, hrest⟩ := List.forall_mem_cons.1 hvalues
    obtain ⟨tail, htail, vtext, hvtext, rfl⟩ := encodeFields?_cons_eq_some.1 htext
    have hfree : NoControl (encodeString false pair.1 ++ 58 :: vtext) :=
      noControl_append.2 ⟨noControl_encodeString hkey,
        noControl_cons.2 ⟨by decide, hv hvtext (ih hrestKeys hrest htail)⟩⟩
    split
    · exact hfree
    · exact noControl_cons.2 ⟨by decide, hfree⟩

/-- The text of a document has no control characters in it. -/
lemma Proper.writesNoControl {v : Value} (hv : Proper v) : WritesNoControl v := by
  have hword : ∀ word ∈ (["null", "true", "false"] : List Bytes), ∀ b ∈ word, 0x20 ≤
      b := by decide +kernel
  induction hv with
  | null =>
    rintro behind text ⟨⟩ hbehind
    exact noControl_append.2 ⟨hword _ (by simp), hbehind⟩
  | bool b =>
    intro behind text htext hbehind
    cases b <;> cases htext <;> exact noControl_append.2 ⟨hword _ (by simp), hbehind⟩
  | @num literal h =>
    intro behind text htext hbehind
    have hne : ¬ literal.isEmpty = true := by
      intro hempty
      rw [List.isEmpty_iff.1 hempty] at h
      cases h
    rw [encodeBefore?, if_neg hne, if_pos h] at htext
    cases htext
    exact noControl_append.2 ⟨noControl_of_isNumber h, hbehind⟩
  | str h =>
    rintro behind text ⟨⟩ hbehind
    exact noControl_append.2 ⟨noControl_encodeString h, hbehind⟩
  | arr hproper ih =>
    intro behind text htext hbehind
    obtain ⟨rest, hrest, rfl⟩ := Option.map_eq_some_iff.1 htext
    exact noControl_cons.2
      ⟨by decide, noControl_encodeItems? ih hrest (noControl_cons.2 ⟨by decide, hbehind⟩)⟩
  | obj hkeys hvalues ih =>
    intro behind text htext hbehind
    obtain ⟨rest, hrest, rfl⟩ := Option.map_eq_some_iff.1 htext
    exact noControl_cons.2
      ⟨by decide, noControl_encodeFields? hkeys ih hrest (noControl_cons.2 ⟨by decide, hbehind⟩)⟩

end Document.Json

namespace Interpreter

open Document.Json (decode encode? TooDeep component deepComponent deepText decode_deepText
  encode?_deepComponent nestingLimit)

/-! ## Pieces -/

lemma pieces_ne_nil (width : Nat) (s : Bytes) : pieces width s ≠ [] := by
  unfold pieces
  split
  · simp
  · simp

/-- Nothing is lost where a text is cut. -/
lemma flatten_pieces (width : Nat) (s : Bytes) : (pieces width s).flatten = s := by
  fun_induction pieces width s with
  | case1 s _ ih => rw [List.flatten_cons, ih, List.take_append_drop]
  | case2 s _ => exact List.append_nil s

/-- Pieces denote the text that was cut, whatever blanks stand in front of each. -/
lemma denoted_quotedPieces (blanks : Bytes) (hblanks : ∀ c ∈ blanks, C.isBlank c)
    (width : Nat) (s : Bytes) :
    C.denoted? ((quotedPieces width s).flatMap (blanks ++ ·)) = some s := by
  rw [quotedPieces, List.flatMap_map, C.denoted_quotes hblanks, flatten_pieces]

/-! ## The declaration -/

def Declares (source name text : Bytes) : Prop :=
  ∃ before literals after, C.denoted? literals = some text ∧
    source = before ++ ("static const char " ++ name ++ "[] =" ++ literals ++ ";" ++ after)

lemma Declares.extend {source name : Bytes} (h : Declares source name text) (front behind : Bytes) :
    Declares (front ++ source ++ behind) name text := by
  obtain ⟨before, literals, after, hliterals, rfl⟩ := h
  exact ⟨front ++ before, literals, after ++ behind, hliterals, by simp⟩

lemma ofLines_append (ls ls' : List Bytes) : ofLines (ls ++ ls') = ofLines ls ++ ofLines ls' := by
  simp [ofLines]

def pieceMargin : Bytes := 10 :: "    "

def pieceLines (ps : List Bytes) : List Bytes :=
  ps.dropLast.map (fun piece : Bytes => "    " ++ piece) ++
    ps.getLast?.toList.map fun piece : Bytes => "    " ++ piece ++ ";"

def declarationHead : List Bytes := ["/* Embedded UI */", [], "static const char g_embedded_ui[] ="]

lemma ofLines_pieceLines (h : ps ≠ []) :
    10 :: ofLines (pieceLines ps) = ps.flatMap (pieceMargin ++ ·) ++ [59, 10] := by
  have hsemicolon : Bytes.ofString ";" = [59] := rfl
  induction ps with
  | nil => exact absurd rfl h
  | cons piece ps ih =>
    cases ps with
    | nil => simp [pieceLines, ofLines, pieceMargin, hsemicolon]
    | cons next ps =>
      have hrest := ih (by simp)
      rw [List.flatMap_cons, List.append_assoc, ← hrest]
      simp [pieceLines, ofLines, pieceMargin]

lemma ofLines_declarationHead : ofLines declarationHead =
    ("/* Embedded UI */\n\n" : Bytes) ++ ("static const char " ++ "g_embedded_ui" ++ "[] =" ++
      ([10] : Bytes)) := by
  decide +kernel

lemma declares_embeddedLines (hne : ps ≠ [])
    (h : C.denoted? (ps.flatMap (pieceMargin ++ ·)) = some text) :
    Declares (ofLines (embeddedLines ps)) "g_embedded_ui" text := by
  obtain ⟨tail, htail⟩ : ∃ tail, embeddedLines ps = declarationHead ++ (pieceLines ps ++ tail) :=
    ⟨_, by rw [pieceLines, List.append_assoc]; rfl⟩
  have hlines : ofLines (embeddedLines ps) = "/* Embedded UI */\n\n" ++
      ("static const char " ++ "g_embedded_ui" ++ "[] =" ++ (10 :: ofLines (pieceLines ps)) ++
        ofLines tail) := by
    simp [htail, ofLines_append, ofLines_declarationHead]
  refine ⟨"/* Embedded UI */\n\n", _, 10 :: ofLines tail, h, hlines.trans ?_⟩
  have hsemicolon : Bytes.ofString ";" = [59] := rfl
  simp [ofLines_pieceLines hne, hsemicolon]

lemma declares_sourceText
    (h : Declares (ofLines (embeddedLines ps)) "g_embedded_ui" text) (banner : Bytes)
    (maxUserEnums : Int)
    (enums : EnumTable) (types : TypeTable) (table : InvokeTable) :
    Declares (sourceText banner maxUserEnums enums types table (some ps)) "g_embedded_ui" text := by
  have hpart : ∀ w : C.Writer, ((w.raw (ofLines (embeddedLines ps))).blank).text =
      w.text ++ ofLines (embeddedLines ps) ++ [10] := by
    intro w
    simp [C.Writer.raw, C.Writer.blank, C.Writer.newline, C.Writer.text]
  rw [sourceText, hpart]
  exact h.extend _ _

/-! ## Documents -/

def dryRun (cfg : Settings) (sizes : Api.Sizes) (ui : Value) :
    Except Transpile.Failure Transpile.Output :=
  (Transpile.transpile (.make cfg.index cfg.enums cfg.filter [] [] cfg.source) ui sizes).1

lemma embed_of_dryRun {cfg : Settings} {sizes : Api.Sizes} {ui : Value} {dry : Transpile.Output}
    (h : dryRun cfg sizes ui = .ok dry) : (embed cfg sizes ui).1 =
      (encode? ui).elim (.error .unwritable) fun text => .ok
      (dry.diagnostics, quotedPieces pieceWidth text) := by
  rw [dryRun] at h
  simp only [embed, h]
  cases encode? ui <;> rfl

/-- **What embedding keeps.**  A document that was read and passes its check is refused if and only
if it is too deep. Otherwise the literals, one behind the other or as they stand in any source file,
denote the encoding of the document; no octet of the encoding is zero, and the document is read from
it as it is. -/
theorem embedded_document_survives_iff (cfg : Settings) (sizes : Api.Sizes) {s : Bytes} {ui : Value}
    {dry : Transpile.Output} (hdecode : decode s = .ok ui) (hdry : dryRun cfg sizes ui = .ok dry) :
    ((embed cfg sizes ui).1 = .error .unwritable ↔ TooDeep ui) ∧
      (¬ TooDeep ui → ∃ text ps, encode? ui = some text ∧ (embed cfg sizes ui).1 = .ok
        (dry.diagnostics, ps) ∧ C.denoted? ps.flatten = some text ∧
        (∀ banner maxUserEnums enums types table,
          Declares (sourceText banner maxUserEnums enums types table (some ps))
          "g_embedded_ui" text) ∧
        0 ∉ text ∧ decode text = .ok ui) := by
  have hui := Document.Json.proper_of_decode hdecode
  have hembed := embed_of_dryRun hdry
  have hdeep := hui.encode?_eq_none_iff
  cases htext : encode? ui with
  | none =>
    rw [htext] at hembed hdeep
    exact ⟨iff_of_true hembed (hdeep.1 rfl), fun h => absurd (hdeep.1 rfl) h⟩
  | some text =>
    rw [htext] at hembed hdeep
    have hshallow : ¬ TooDeep ui := fun h => nomatch hdeep.2 h
    have hbefore := Document.Json.encodeBefore?_of_encode? htext
    have hfree := hui.writesNoControl hbefore (by simp [Document.Json.NoControl])
    have hne : quotedPieces pieceWidth text ≠ [] := by
      simpa [quotedPieces] using pieces_ne_nil pieceWidth text
    have hmargin : ∀ c ∈ pieceMargin, C.isBlank c := by decide +kernel
    refine ⟨by simp [hembed, hshallow], fun _ => ⟨text, _, rfl, hembed, ?_, ?_, ?_, ?_⟩⟩
    · simpa using denoted_quotedPieces [] (by simp) pieceWidth text
    · exact declares_sourceText
        (declares_embeddedLines hne (denoted_quotedPieces _ hmargin pieceWidth text))
    · exact fun hzero => absurd (hfree 0 hzero) (by decide)
    · exact Document.Json.decode_of_encodeBefore? hui hbefore

/-! ### Components that nothing uses -/

def emptySettings : Settings := { index := Api.Index.ofDescription {}, enums := .build [] }

/-- The output for a document that only defines a component: it does not depend on the component's
node. -/
def nothingCreated : Transpile.Output :=
  .ofState (.make emptySettings.index emptySettings.enums {} [] [] []) {}

lemma dryRun_component (node : Fields) :
    dryRun emptySettings [] (component node) = .ok nothingCreated := by
  have hrun : (Transpile.run (.make emptySettings.index emptySettings.enums {} [] [] [])
      (component node)).outcome {} = some (.ok (), { components := [("c", node)] }) := by
    cbv
  have hmake : dryRun emptySettings [] (component node) =
      (Transpile.transpile (.make emptySettings.index emptySettings.enums {} [] [] [])
        (component node)).1 := rfl
  rw [hmake, Transpile.transpile, hrun]
  rfl

def questions : Bytes := List.replicate 60 63

/-- The text of a document in which the first cut falls between two question marks. -/
def questionText : Bytes :=
  "\x7b\"type\":\"component\",\"id\":\"@c\",\"root\":\x7b\"text\":\"\\u0001" ++
    questions ++ "é\"\x7d\x7d"

def questionNode : Fields := [("text", .str (1 :: questions ++ "é"))]

set_option maxRecDepth 100000 in
theorem questionNode_survives :
    decode questionText = .ok (component questionNode) ∧
      dryRun emptySettings [] (component questionNode) = .ok nothingCreated ∧
      ∃ text ps, encode? (component questionNode) = some text ∧
        (embed emptySettings [] (component questionNode)).1 = .ok ([], ps) ∧
        C.denoted? ps.flatten = some text ∧
        (∀ banner maxUserEnums enums types table,
          Declares (sourceText banner maxUserEnums enums types table (some ps))
          "g_embedded_ui" text) ∧
        0 ∉ text ∧ decode text = .ok (component questionNode) := by
  have hdecode : decode questionText = .ok (component questionNode) := by
    cbv
  have hdry := dryRun_component questionNode
  have hshallow : ¬ TooDeep (component questionNode) :=
    Document.Json.isShallow_eq_true_iff.1 (by decide +kernel)
  exact ⟨hdecode, hdry, (embedded_document_survives_iff emptySettings [] hdecode hdry).2 hshallow⟩

lemma dryRun_deepComponent (n : Nat) :
    dryRun emptySettings [] (deepComponent n) = .ok nothingCreated :=
  dryRun_component _

/-- A document that is read and passes its check, and yet cannot be compiled in. -/
theorem deepComponent_not_embedded :
    decode (deepText nestingLimit) = .ok (deepComponent nestingLimit) ∧
      dryRun emptySettings [] (deepComponent nestingLimit) = .ok nothingCreated ∧
      (embed emptySettings [] (deepComponent nestingLimit)).1 = .error .unwritable := by
  refine ⟨decode_deepText _, dryRun_deepComponent _, ?_⟩
  rw [embed_of_dryRun (dryRun_deepComponent _), encode?_deepComponent le_rfl, Option.elim_none]

end Interpreter

end UiCodegen
