import GpuPlacement.Builtin.OperatorRules
import GpuPlacement.Proofs.Outline
/-!
What a fingerprint is taken of. The bytes of a placed tree determine its outline, although nothing
tells where a text ends: counts end in zeros, which no legible text has.
-/
namespace GpuPlacement

namespace Fingerprint

/-! Bytes of texts. -/

theorem drop_eq_get!_cons {bytes : ByteArray} {place : Nat} (within : place < bytes.size) :
    bytes.data.toList.drop place = bytes.get! place :: bytes.data.toList.drop (place + 1) := by
  have inside : place < bytes.data.toList.length := by simpa using within
  have byte : bytes.data.toList[place] = bytes.get! place := by simp [ByteArray.get!, within]
  rw [List.drop_eq_getElem_cons inside, byte]

/-- What is left to read stands behind what was read, which is held in reverse. -/
theorem toList_loop (bytes : ByteArray) (place : Nat) (read : List UInt8) :
    ByteArray.toList.loop bytes place read = read.reverse ++ bytes.data.toList.drop place := by
  fun_induction ByteArray.toList.loop bytes place read with
  | case1 place read within ih =>
      rw [ih, drop_eq_get!_cons within, List.reverse_cons, List.append_assoc, List.singleton_append]
  | case2 place read outside =>
      have behind : bytes.data.toList.length ≤ place := by simpa using Nat.le_of_not_lt outside
      rw [List.drop_of_length_le behind, List.append_nil]

theorem textBytes_eq (text : String) :
    textBytes text = text.toList.flatMap String.utf8EncodeChar := by
  have data : text.toUTF8.toList = text.toUTF8.data.toList := by
    simp [ByteArray.toList, toList_loop]
  rw [textBytes, data, String.toUTF8, ← String.utf8Encode_toList, List.utf8Encode,
    List.toList_data_toByteArray]

theorem textBytes_append (text other : String) :
    textBytes (text ++ other) = textBytes text ++ textBytes other := by
  simp only [textBytes_eq, String.toList_append, List.flatMap_append]

theorem textBytes_behind (text other : String) (rest : List UInt8) :
    textBytes text ++ (textBytes other ++ rest) = textBytes (text ++ other) ++ rest := by
  rw [textBytes_append, List.append_assoc]

theorem textBytes_join (texts : List String) :
    textBytes (String.join texts) = texts.flatMap textBytes := by
  rw [textBytes_eq, String.toList_join, List.flatMap_assoc]
  exact List.flatMap_congr fun text _ => (textBytes_eq text).symm

theorem textBytes_inj {text other : String} (same : textBytes text = textBytes other) :
    text = other := by
  rw [textBytes_eq, textBytes_eq] at same
  rw [← String.toByteArray_inj, ← String.utf8Encode_toList, ← String.utf8Encode_toList,
    List.utf8Encode, List.utf8Encode, same]

/-- In characters beyond the first 128 every byte is at least 128. -/
theorem lt_of_mem_utf8EncodeChar {character : Char} (legible : 4 < character.toNat) :
    ∀ byte ∈ String.utf8EncodeChar character, 4 < byte := by
  intro byte member
  have code : character.val.toNat = character.toNat := rfl
  have bound : character.toNat < 1114112 := by
    have valid := character.valid
    simp only [UInt32.isValidChar, Nat.isValidChar, code] at valid
    omega
  unfold String.utf8EncodeChar at member
  rw [code] at member
  generalize character.toNat = code at member legible bound
  dsimp only at member
  rw [UInt8.lt_iff_toNat_lt]
  split at member
  · rw [List.mem_singleton.mp member]
    simp
    omega
  · split at member
    · simp only [List.mem_cons, List.not_mem_nil, or_false] at member
      rcases member with rfl | rfl <;> simp <;> omega
    · split at member
      · simp only [List.mem_cons, List.not_mem_nil, or_false] at member
        rcases member with rfl | rfl | rfl <;> simp <;> omega
      · simp only [List.mem_cons, List.not_mem_nil, or_false] at member
        rcases member with rfl | rfl | rfl | rfl <;> simp <;> omega

theorem textBytes_legible {text : String} (legible : Legible text) :
    ∀ byte ∈ textBytes text, 4 < byte := by
  rw [textBytes_eq]
  intro byte member
  obtain ⟨character, among, inside⟩ := List.mem_flatMap.mp member
  exact lt_of_mem_utf8EncodeChar (legible character among) byte inside

theorem textBytes_empty : textBytes "" = [] := by
  rw [textBytes_eq, String.toList_empty, List.flatMap_nil]

theorem textBytes_ne_nil {text : String} (given : text ≠ "") : textBytes text ≠ [] :=
  fun none => given (textBytes_inj (none.trans textBytes_empty.symm))

theorem paramBytes_eq (params : Params) : paramBytes params = textBytes (paramText params) := by
  rw [paramText, textBytes_join, List.flatMap_map, paramBytes]
  exact List.flatMap_congr fun entry _ => (textBytes_append ..).symm

/-! Bytes of words and counts. -/

theorem wordBytes_eq (word : UInt64) :
    wordBytes word = [word.toUInt8, (word >>> 8).toUInt8, (word >>> 16).toUInt8,
      (word >>> 24).toUInt8, (word >>> 32).toUInt8, (word >>> 40).toUInt8, (word >>> 48).toUInt8,
      (word >>> 56).toUInt8] := by
  simp [wordBytes, List.range, List.range.loop]

theorem length_wordBytes (word : UInt64) : (wordBytes word).length = 8 := by
  rw [wordBytes, List.length_map, List.length_range]

theorem wordBytes_inj {word other : UInt64} (same : wordBytes word = wordBytes other) :
    word = other := by
  have bytes := congrArg (List.map UInt8.toNat) same
  have top := word.toNat_lt
  have otherTop := other.toNat_lt
  simp [wordBytes_eq, Nat.shiftRight_eq_div_pow] at bytes
  apply UInt64.toNat_inj.mp
  omega

theorem toNat_count {count : Nat} (small : count < UInt32.size) :
    (UInt64.ofNat count).toNat = count :=
  UInt64.toNat_ofNat_of_lt' (Nat.lt_trans small (by decide))

/-- Of a small count the higher half is zero. -/
theorem countBytes_eq {count : Nat} (small : count < UInt32.size) :
    ∃ first second third fourth,
      countBytes count = [first, second, third, fourth, 0, 0, 0, 0] := by
  have high : ∀ shift : UInt64, shift.toNat < 64 → 32 ≤ shift.toNat →
      UInt64.ofNat count >>> shift = 0 := by
    intro shift top low
    apply UInt64.toNat_inj.mp
    rw [UInt64.toNat_shiftRight, toNat_count small, Nat.mod_eq_of_lt top]
    have below : count < 2 ^ shift.toNat :=
      Nat.lt_of_lt_of_le small (Nat.pow_le_pow_right Nat.zero_lt_two low)
    exact Nat.shiftRight_eq_zero _ _ below
  rw [countBytes, wordBytes_eq, high 32 (by decide) (by decide), high 40 (by decide) (by decide),
    high 48 (by decide) (by decide), high 56 (by decide) (by decide)]
  exact ⟨_, _, _, _, rfl⟩

theorem countBytes_inj {count other : Nat} (small : count < UInt32.size)
    (otherSmall : other < UInt32.size) (same : countBytes count = countBytes other) :
    count = other := by
  rw [← toNat_count small, wordBytes_inj same, toNat_count otherSmall]

theorem countBytes_append_inj {count other : Nat} {rest otherRest : List UInt8}
    (small : count < UInt32.size) (otherSmall : other < UInt32.size)
    (same : countBytes count ++ rest = countBytes other ++ otherRest) :
    count = other ∧ rest = otherRest := by
  have lengths : (countBytes count).length = (countBytes other).length := by
    rw [countBytes, countBytes, length_wordBytes, length_wordBytes]
  obtain ⟨counts, rests⟩ := List.append_inj same lengths
  exact ⟨countBytes_inj small otherSmall counts, rests⟩

/-! A text, then a count, then as many parts as the count says. -/

/-- What stands behind a count. Where something is counted, it does not begin with a zero. -/
structure Counted (count : Nat) (rest : List UInt8) : Prop where
  small : count < UInt32.size
  feeds : count ≠ 0 → ∃ byte more, rest = byte :: more ∧ byte ≠ 0

/-- Bytes that read as a text, a count and what it counts. -/
structure Reads (bytes text : List UInt8) (count : Nat) (rest : List UInt8) : Prop
    extends Counted count rest where
  spells : bytes = text ++ (countBytes count ++ rest)
  clear : 0 ∉ text

/-- A count does not give way to more text: the zeros at its end would meet what it counts. -/
theorem Counted.not_shifted {count other : Nat} {byte : UInt8} {extra rest otherRest : List UInt8}
    (h : Counted count rest) (otherSmall : other < UInt32.size) (clear : 0 ∉ byte :: extra) :
    countBytes count ++ rest ≠ byte :: extra ++ (countBytes other ++ otherRest) := by
  intro same
  by_cases none : count = 0
  · have head : (0 : UInt8) = byte := by
      rw [none, countBytes, wordBytes_eq] at same
      exact (List.cons.inj same).1
    exact clear (head ▸ List.mem_cons_self)
  · obtain ⟨next, more, rfl, nonzero⟩ := h.feeds none
    obtain ⟨b₀, b₁, b₂, b₃, bytes⟩ := countBytes_eq h.small
    obtain ⟨c₀, c₁, c₂, c₃, otherBytes⟩ := countBytes_eq otherSmall
    rw [bytes, otherBytes] at same
    -- The text goes on for at most four bytes, as the fifth byte of the count is zero.
    rcases extra with _ | ⟨second, _ | ⟨third, _ | ⟨fourth, _ | ⟨fifth, deeper⟩⟩⟩⟩ <;>
      simp at same clear <;> grind

theorem Reads.not_longer {bytes text extra rest otherRest : List UInt8} {count other : Nat}
    (h : Reads bytes text count rest) (also : Reads bytes (text ++ extra) other otherRest) :
    extra = [] := by
  cases extra with
  | nil => rfl
  | cons byte extra =>
      have same := h.spells.symm.trans also.spells
      rw [List.append_assoc] at same
      have clear : 0 ∉ byte :: extra := fun zero => also.clear (List.mem_append_right _ zero)
      exact absurd (List.append_cancel_left same) (h.not_shifted also.small clear)

theorem Reads.unique {bytes text otherText rest otherRest : List UInt8} {count other : Nat}
    (h : Reads bytes text count rest) (also : Reads bytes otherText other otherRest) :
    text = otherText ∧ count = other ∧ rest = otherRest := by
  have same := h.spells.symm.trans also.spells
  have texts : text = otherText := by
    rcases List.append_eq_append_iff.mp same with ⟨extra, rfl, -⟩ | ⟨extra, rfl, -⟩
    · rw [h.not_longer also, List.append_nil]
    · rw [also.not_longer h, List.append_nil]
  rw [texts] at same
  exact ⟨texts, countBytes_append_inj h.small also.small (List.append_cancel_left same)⟩

/-! Parts one after the other. -/

/-- Equally many parts are read, where each of them is read with any fitting bytes behind it. -/
theorem flatMap_append_inj {α β : Type} {write : α → List UInt8} {outline : α → β}
    {Valid : α → Prop} (Fits : List UInt8 → Prop)
    (behind : ∀ (parts : List α) rest, (∀ part ∈ parts, Valid part) → Fits rest →
      Fits (parts.flatMap write ++ rest))
    {parts others : List α} {rest otherRest : List UInt8}
    (each : ∀ part ∈ parts, ∀ other rest otherRest, Valid other → Fits rest → Fits otherRest →
      write part ++ rest = write other ++ otherRest →
        outline part = outline other ∧ rest = otherRest)
    (valid : ∀ part ∈ parts, Valid part) (otherValid : ∀ other ∈ others, Valid other)
    (fits : Fits rest) (otherFits : Fits otherRest) (lengths : parts.length = others.length)
    (same : parts.flatMap write ++ rest = others.flatMap write ++ otherRest) :
    parts.map outline = others.map outline ∧ rest = otherRest := by
  induction parts generalizing others with
  | nil =>
      obtain rfl := List.length_eq_zero_iff.mp lengths.symm
      exact ⟨rfl, same⟩
  | cons part parts ih =>
      cases others with
      | nil => cases lengths
      | cons other others =>
          obtain ⟨head, later⟩ := List.forall_mem_cons.mp each
          obtain ⟨-, remaining⟩ := List.forall_mem_cons.mp valid
          obtain ⟨first, otherRemaining⟩ := List.forall_mem_cons.mp otherValid
          rw [List.flatMap_cons, List.flatMap_cons, List.append_assoc, List.append_assoc] at same
          obtain ⟨outlines, further⟩ := head other _ _ first (behind _ _ remaining fits)
            (behind _ _ otherRemaining otherFits) same
          obtain ⟨siblings, rests⟩ :=
            ih later remaining otherRemaining (Nat.succ.inj lengths) further
          exact ⟨by rw [List.map_cons, List.map_cons, outlines, siblings], rests⟩

/-! Expressions. -/

theorem allExprBytes_eq_flatMap (exprs : List GpuExpr) :
    allExprBytes exprs = exprs.flatMap exprBytes :=
  eq_flatMap_of_cons rfl (fun _ _ => rfl) exprs

theorem exprBytes_eq (name : String) (type : DataType) (nullable : Bool) (params : Params)
    (children : List GpuExpr) (rest : List UInt8) :
    exprBytes ⟨name, type, nullable, params, children⟩ ++ rest =
      textBytes (name ++ type.name ++ paramText params) ++
        (countBytes children.length ++ (allExprBytes children ++ rest)) := by
  rw [exprBytes, paramBytes_eq, textBytes_append, textBytes_append]
  simp only [List.append_assoc]

theorem exprText_ne_nil (name : String) (type : DataType) (params : Params) :
    textBytes (name ++ type.name ++ paramText params) ≠ [] := by
  apply textBytes_ne_nil
  intro none
  rw [String.append_eq_empty_iff, String.append_eq_empty_iff] at none
  exact type.name_ne_empty none.1.2

/-- An expression begins with its text, which does not begin with a zero. -/
theorem exprBytes_head {expr : GpuExpr} (readable : expr.Readable) (rest : List UInt8) :
    ∃ byte more, exprBytes expr ++ rest = byte :: more ∧ byte ≠ 0 := by
  obtain ⟨name, type, nullable, params, children⟩ := expr
  rw [exprBytes_eq]
  obtain ⟨byte, more, text⟩ := List.exists_cons_of_ne_nil (exprText_ne_nil name type params)
  have legible := textBytes_legible readable.text byte (text ▸ List.mem_cons_self)
  rw [text, List.cons_append]
  exact ⟨byte, _, rfl, fun zero => by simp [zero] at legible⟩

theorem zero_notMem_of_legible {text : String} (legible : Legible text) : 0 ∉ textBytes text := by
  intro zero
  have high := textBytes_legible legible 0 zero
  simp at high

theorem reads_exprBytes {name : String} {type : DataType} {nullable : Bool} {params : Params}
    {children : List GpuExpr} (readable : GpuExpr.Readable ⟨name, type, nullable, params, children⟩)
    {first : String} (legible : Legible first) (rest : List UInt8) :
    Reads (textBytes first ++ (exprBytes ⟨name, type, nullable, params, children⟩ ++ rest))
      (textBytes (first ++ (name ++ type.name ++ paramText params))) children.length
      (allExprBytes children ++ rest) := by
  constructor
  case spells => rw [exprBytes_eq, textBytes_append first, List.append_assoc]
  case clear => exact zero_notMem_of_legible (legible.append readable.text)
  case toCounted =>
    refine ⟨readable.arity, fun given => ?_⟩
    cases children with
    | nil => exact absurd rfl given
    | cons child others =>
        rw [allExprBytes, List.append_assoc]
        exact exprBytes_head (readable.child child List.mem_cons_self) _

/-- An expression is read together with a text before it. -/
theorem exprBytes_append_inj {expr other : GpuExpr} (readable : expr.Readable)
    (otherReadable : other.Readable) {first otherFirst : String} (legible : Legible first)
    (otherLegible : Legible otherFirst) {rest otherRest : List UInt8}
    (same : textBytes first ++ (exprBytes expr ++ rest) =
      textBytes otherFirst ++ (exprBytes other ++ otherRest)) :
    expr.outline.behind first = other.outline.behind otherFirst ∧ rest = otherRest := by
  induction expr generalizing other first otherFirst rest otherRest with
  | node name type nullable params children ih =>
      obtain ⟨otherName, otherType, otherNullable, otherParams, otherChildren⟩ := other
      have reads := reads_exprBytes readable legible rest
      rw [same] at reads
      obtain ⟨texts, lengths, further⟩ :=
        reads.unique (reads_exprBytes otherReadable otherLegible otherRest)
      have each : ∀ child ∈ children, ∀ other rest otherRest, other.Readable → True → True →
          exprBytes child ++ rest = exprBytes other ++ otherRest →
            child.outline = other.outline ∧ rest = otherRest := by
        intro child member other rest otherRest otherReadable _ _ same
        have padded := congrArg (textBytes "" ++ ·) same
        obtain ⟨outlines, rests⟩ := ih child member (readable.child child member) otherReadable
          Legible.empty Legible.empty padded
        rw [ExprOutline.behind_empty, ExprOutline.behind_empty] at outlines
        exact ⟨outlines, rests⟩
      rw [allExprBytes_eq_flatMap, allExprBytes_eq_flatMap] at further
      obtain ⟨outlines, rests⟩ := flatMap_append_inj (fun _ => True) (fun _ _ _ _ => trivial) each
        readable.child otherReadable.child trivial trivial lengths further
      rw [GpuExpr.outline, GpuExpr.outline, ExprOutline.behind, ExprOutline.behind,
        outlinesOfExprs_eq_map, outlinesOfExprs_eq_map, outlines, textBytes_inj texts]
      exact ⟨rfl, rests⟩

/-! Operators. -/

/-- Bytes that cannot be taken for a legible text and a count. -/
def Opens (bytes : List UInt8) : Prop :=
  ∀ text count rest, Reads bytes text count rest → ∃ byte ∈ text, byte ≤ 4

theorem opens_nil : Opens [] := by
  intro text count rest reads
  have lengths := congrArg List.length reads.spells
  rw [List.length_append, List.length_append, countBytes, length_wordBytes, List.length_nil]
    at lengths
  omega

theorem Reads.opens {bytes text rest : List UInt8} {count : Nat} {byte : UInt8}
    (h : Reads bytes text count rest) (member : byte ∈ text) (low : byte ≤ 4) : Opens bytes := by
  intro otherText other otherRest also
  obtain ⟨rfl, -, -⟩ := h.unique also
  exact ⟨byte, member, low⟩

theorem Reads.cons {bytes text rest : List UInt8} {count : Nat} (h : Reads bytes text count rest)
    {byte : UInt8} (nonzero : byte ≠ 0) : Reads (byte :: bytes) (byte :: text) count rest where
  spells := by rw [h.spells, List.cons_append]
  clear := by
    intro zero
    rcases List.mem_cons.mp zero with same | later
    · exact nonzero same.symm
    · exact h.clear later
  toCounted := h.toCounted

/-- A target that leaves its highest byte free ends in a zero, and a count would end before it. -/
theorem opens_target {target : UInt64} (small : target >>> 56 = 0) (rest : List UInt8) :
    Opens (3 :: (wordBytes target ++ rest)) := by
  intro text count more reads
  have same := reads.spells
  cases text with
  | cons byte text =>
      obtain ⟨rfl, -⟩ := List.cons.inj same
      exact ⟨3, List.mem_cons_self, by decide⟩
  | nil =>
      exfalso
      rw [wordBytes_eq, small, List.nil_append] at same
      by_cases none : count = 0
      · rw [none, countBytes, wordBytes_eq] at same
        exact absurd (List.cons.inj same).1 (by decide)
      · obtain ⟨byte, later, rfl, nonzero⟩ := reads.feeds none
        obtain ⟨b₀, b₁, b₂, b₃, bytes⟩ := countBytes_eq reads.small
        rw [bytes] at same
        simp at same
        exact nonzero same.2.2.2.2.2.2.2.2.1.symm

theorem reads_text {text : String} {count : Nat} {rest : List UInt8} (legible : Legible text)
    (counted : Counted count rest) :
    Reads (textBytes text ++ (countBytes count ++ rest)) (textBytes text) count rest :=
  ⟨counted, rfl, zero_notMem_of_legible legible⟩

theorem reads_exprs {exprs : List GpuExpr} (readable : ∀ expr ∈ exprs, expr.Readable)
    {first last : String} (legible : Legible first) (lastLegible : Legible last) {count : Nat}
    {rest : List UInt8} (counted : Counted count rest) :
    ∃ text other more, Legible text ∧
      Reads (textBytes first ++ (allExprBytes exprs ++
        (textBytes last ++ (countBytes count ++ rest)))) (textBytes text) other more := by
  cases exprs with
  | nil =>
      have joined := legible.append lastLegible
      rw [allExprBytes, List.nil_append, textBytes_behind]
      exact ⟨first ++ last, _, _, joined, reads_text joined counted⟩
  | cons expr exprs =>
      obtain ⟨name, type, nullable, params, children⟩ := expr
      have head := readable _ List.mem_cons_self
      rw [allExprBytes, List.append_assoc]
      exact ⟨_, _, _, legible.append head.text, reads_exprBytes head legible _⟩

/-- Where expressions go on, no operator begins. -/
theorem not_opens_exprs {exprs : List GpuExpr} (readable : ∀ expr ∈ exprs, expr.Readable)
    {last : String} (legible : Legible last) {count : Nat} {rest : List UInt8}
    (counted : Counted count rest) :
    ¬ Opens (allExprBytes exprs ++ (textBytes last ++ (countBytes count ++ rest))) := by
  intro opens
  obtain ⟨text, other, more, high, reads⟩ := reads_exprs readable Legible.empty legible counted
  rw [textBytes_empty, List.nil_append] at reads
  obtain ⟨byte, member, low⟩ := opens _ _ _ reads
  exact absurd (textBytes_legible high byte member) (UInt8.not_lt.mpr low)

/-- What stands behind an operator: what its inputs are, and that nothing there can be taken for one
more expression. -/
structure Tail (count : Nat) (rest : List UInt8) : Prop extends Counted count rest where
  opens : Opens rest

theorem allExprBytes_append (exprs others : List GpuExpr) :
    allExprBytes (exprs ++ others) = allExprBytes exprs ++ allExprBytes others := by
  simp only [allExprBytes_eq_flatMap, List.flatMap_append]

/-- An operator without expressions is told apart from one that has some. -/
theorem exprs_eq_nil {exprs : List GpuExpr} (readable : ∀ expr ∈ exprs, expr.Readable)
    {text first last : String} (textLegible : Legible text) (legible : Legible first)
    (lastLegible : Legible last) {count other : Nat} {rest otherRest : List UInt8}
    (tail : Tail count rest) (otherTail : Tail other otherRest)
    (same : textBytes text ++ (countBytes count ++ rest) = textBytes first ++
      (allExprBytes exprs ++ (textBytes last ++ (countBytes other ++ otherRest)))) :
    exprs = [] := by
  cases exprs with
  | nil => rfl
  | cons expr exprs =>
      obtain ⟨name, type, nullable, params, children⟩ := expr
      obtain ⟨head, later⟩ := List.forall_mem_cons.mp readable
      have reads := reads_text textLegible tail.toCounted
      rw [same, allExprBytes, List.append_assoc] at reads
      obtain ⟨-, -, further⟩ := reads.unique (reads_exprBytes head legible _)
      have parts : ∀ expr ∈ children ++ exprs, expr.Readable := by
        intro expr member
        rcases List.mem_append.mp member with argument | among
        · exact head.child expr argument
        · exact later expr among
      have opens := tail.opens
      rw [further, ← List.append_assoc, ← allExprBytes_append] at opens
      exact absurd opens (not_opens_exprs parts lastLegible otherTail.toCounted)

theorem around_append_inj {exprs others : List GpuExpr}
    (readable : ∀ expr ∈ exprs, expr.Readable) (otherReadable : ∀ expr ∈ others, expr.Readable)
    {first last otherFirst otherLast : String} (legible : Legible first)
    (lastLegible : Legible last) (otherLegible : Legible otherFirst)
    (otherLastLegible : Legible otherLast) {count other : Nat} {rest otherRest : List UInt8}
    (tail : Tail count rest) (otherTail : Tail other otherRest)
    (same : textBytes first ++ (allExprBytes exprs ++
        (textBytes last ++ (countBytes count ++ rest))) =
      textBytes otherFirst ++ (allExprBytes others ++
        (textBytes otherLast ++ (countBytes other ++ otherRest)))) :
    OperatorOutline.around first (exprs.map GpuExpr.outline) last =
        .around otherFirst (others.map GpuExpr.outline) otherLast ∧
      count = other ∧ rest = otherRest := by
  induction exprs generalizing others first otherFirst with
  | nil =>
      rw [allExprBytes, List.nil_append, textBytes_behind] at same
      have joined := legible.append lastLegible
      obtain rfl :=
        exprs_eq_nil otherReadable joined otherLegible otherLastLegible tail otherTail same
      rw [allExprBytes, List.nil_append, textBytes_behind] at same
      have reads := reads_text joined tail.toCounted
      rw [same] at reads
      obtain ⟨texts, counts, rests⟩ :=
        reads.unique (reads_text (otherLegible.append otherLastLegible) otherTail.toCounted)
      exact ⟨congrArg (OperatorOutline.gpu []) (textBytes_inj texts), counts, rests⟩
  | cons expr exprs ih =>
      cases others with
      | nil =>
          have swapped := same.symm
          rw [allExprBytes, List.nil_append, textBytes_behind] at swapped
          have none := exprs_eq_nil readable (otherLegible.append otherLastLegible) legible
            lastLegible otherTail tail swapped
          cases none
      | cons otherExpr others =>
          obtain ⟨head, later⟩ := List.forall_mem_cons.mp readable
          obtain ⟨otherHead, remaining⟩ := List.forall_mem_cons.mp otherReadable
          rw [allExprBytes, allExprBytes, List.append_assoc, List.append_assoc] at same
          obtain ⟨outlines, beyond⟩ :=
            exprBytes_append_inj head otherHead legible otherLegible same
          -- Behind the first expressions the others stand in the same place, with no text in front.
          have padded := congrArg (textBytes "" ++ ·) beyond
          obtain ⟨arounds, counts, rests⟩ := ih later remaining Legible.empty Legible.empty padded
          rw [OperatorOutline.around_empty, OperatorOutline.around_empty] at arounds
          obtain ⟨siblings, lasts⟩ := OperatorOutline.gpu.inj arounds
          refine ⟨?_, counts, rests⟩
          rw [List.map_cons, List.map_cons, OperatorOutline.around_cons,
            OperatorOutline.around_cons, outlines, siblings, lasts]

theorem operatorBytes_gpu (operator : GpuOperator) (rest : List UInt8) :
    operatorBytes (.gpu operator) ++ rest =
      1 :: (textBytes operator.name ++ (allExprBytes operator.allExpressions ++
        (textBytes (paramText operator.params) ++ rest))) := by
  rw [operatorBytes, paramBytes_eq]
  simp only [List.append_assoc, List.cons_append]

theorem operatorBytes_host (operator : HostOperator) (rest : List UInt8) :
    operatorBytes (.host operator) ++ rest = 2 :: (textBytes operator.text ++ rest) := by
  have exprs : operator.allExpressions.flatMap (fun expr => textBytes expr.sql) =
      textBytes (String.join (operator.allExpressions.map HostExpr.sql)) := by
    rw [textBytes_join, List.flatMap_map]
  rw [operatorBytes, paramBytes_eq, exprs, HostOperator.text, textBytes_append, textBytes_append]
  simp only [List.append_assoc, List.cons_append]

theorem opens_operatorBytes {operator : PlacedOperator} (readable : operator.Readable) {count : Nat}
    {rest : List UInt8} (counted : Counted count rest) :
    Opens (operatorBytes operator ++ (countBytes count ++ rest)) := by
  cases operator with
  | gpu operator =>
      obtain ⟨name, params, exprs⟩ := readable
      obtain ⟨text, other, more, -, reads⟩ := reads_exprs exprs name params.text counted
      rw [operatorBytes_gpu]
      exact (reads.cons (by decide)).opens List.mem_cons_self (by decide)
  | host operator =>
      have reads := reads_text readable.hostText counted
      rw [operatorBytes_host]
      exact (reads.cons (by decide)).opens List.mem_cons_self (by decide)
  | rowToColumnar target => exact opens_target readable _
  | columnarToRow =>
      have reads := reads_text Legible.empty counted
      rw [textBytes_empty] at reads
      exact (reads.cons (by decide)).opens List.mem_cons_self (by decide)

/-- The byte that every operator of a kind begins with. -/
def kindByte : PlacedOperator → UInt8
  | .gpu _ => 1
  | .host _ => 2
  | .rowToColumnar _ => 3
  | .columnarToRow => 4

theorem operatorBytes_head (operator : PlacedOperator) (rest : List UInt8) :
    (operatorBytes operator ++ rest).head? = some (kindByte operator) := by
  cases operator <;> rfl

theorem operatorBytes_append_inj {operator other : PlacedOperator} (readable : operator.Readable)
    (otherReadable : other.Readable) {count otherCount : Nat} {rest otherRest : List UInt8}
    (tail : Tail count rest) (otherTail : Tail otherCount otherRest)
    (same : operatorBytes operator ++ (countBytes count ++ rest) =
      operatorBytes other ++ (countBytes otherCount ++ otherRest)) :
    operator.outline = other.outline ∧ count = otherCount ∧ rest = otherRest := by
  have heads := congrArg List.head? same
  rw [operatorBytes_head, operatorBytes_head] at heads
  have kinds : kindByte operator = kindByte other := Option.some.inj heads
  cases operator with
  | gpu operator =>
      cases other with
      | gpu other =>
          obtain ⟨name, params, exprs⟩ := readable
          obtain ⟨otherName, otherParams, otherExprs⟩ := otherReadable
          rw [operatorBytes_gpu, operatorBytes_gpu] at same
          exact around_append_inj exprs otherExprs name params.text otherName otherParams.text tail
            otherTail (List.cons.inj same).2
      | _ => simp [kindByte] at kinds
  | host operator =>
      cases other with
      | host other =>
          have reads := reads_text readable.hostText tail.toCounted
          rw [operatorBytes_host, operatorBytes_host] at same
          rw [(List.cons.inj same).2] at reads
          obtain ⟨texts, counts, rests⟩ :=
            reads.unique (reads_text otherReadable.hostText otherTail.toCounted)
          exact ⟨congrArg OperatorOutline.host (textBytes_inj texts), counts, rests⟩
      | _ => simp [kindByte] at kinds
  | rowToColumnar target =>
      cases other with
      | rowToColumnar otherTarget =>
          have lengths := (length_wordBytes target).trans (length_wordBytes otherTarget).symm
          obtain ⟨targets, counts⟩ := List.append_inj (List.cons.inj same).2 lengths
          refine ⟨congrArg OperatorOutline.rowToColumnar (wordBytes_inj targets), ?_⟩
          exact countBytes_append_inj tail.small otherTail.small counts
      | _ => simp [kindByte] at kinds
  | columnarToRow =>
      cases other with
      | columnarToRow =>
          exact ⟨rfl, countBytes_append_inj tail.small otherTail.small (List.cons.inj same).2⟩
      | _ => simp [kindByte] at kinds

/-! Trees. -/

theorem allNodeBytes_eq_flatMap (nodes : List PlacedNode) :
    allNodeBytes nodes = nodes.flatMap nodeBytes :=
  eq_flatMap_of_cons rfl (fun _ _ => rfl) nodes

theorem nodeBytes_eq (operator : PlacedOperator) (inputs : List PlacedNode) (rest : List UInt8) :
    nodeBytes ⟨operator, inputs⟩ ++ rest =
      operatorBytes operator ++ (countBytes inputs.length ++ (allNodeBytes inputs ++ rest)) := by
  rw [nodeBytes]
  simp only [List.append_assoc]

theorem nodeBytes_head (node : PlacedNode) (rest : List UInt8) :
    ∃ byte more, nodeBytes node ++ rest = byte :: more ∧ byte ≠ 0 := by
  obtain ⟨operator, inputs⟩ := node
  rw [nodeBytes_eq]
  cases operator <;> exact ⟨_, _, rfl, by decide⟩

theorem counted_inputs {operator : PlacedOperator} {inputs : List PlacedNode}
    (readable : PlacedNode.Readable ⟨operator, inputs⟩) (rest : List UInt8) :
    Counted inputs.length (allNodeBytes inputs ++ rest) where
  small := readable.arity
  feeds := by
    intro given
    cases inputs with
    | nil => exact absurd rfl given
    | cons input inputs =>
        rw [allNodeBytes, List.append_assoc]
        exact nodeBytes_head input _

theorem opens_allNodeBytes {nodes : List PlacedNode} (readable : ∀ node ∈ nodes, node.Readable)
    {rest : List UInt8} (opens : Opens rest) : Opens (allNodeBytes nodes ++ rest) := by
  cases nodes with
  | nil => exact opens
  | cons node nodes =>
      obtain ⟨operator, inputs⟩ := node
      have head := readable _ List.mem_cons_self
      rw [allNodeBytes, List.append_assoc, nodeBytes_eq]
      exact opens_operatorBytes head.operator (counted_inputs head _)

theorem nodeBytes_append_inj {node other : PlacedNode} {rest otherRest : List UInt8}
    (readable : node.Readable) (otherReadable : other.Readable) (opens : Opens rest)
    (otherOpens : Opens otherRest) (same : nodeBytes node ++ rest = nodeBytes other ++ otherRest) :
    node.outline = other.outline ∧ rest = otherRest := by
  induction node generalizing other rest otherRest with
  | node operator inputs ih =>
      obtain ⟨otherOperator, otherInputs⟩ := other
      rw [nodeBytes_eq, nodeBytes_eq] at same
      have tail : Tail inputs.length (allNodeBytes inputs ++ rest) :=
        ⟨counted_inputs readable rest, opens_allNodeBytes readable.input opens⟩
      have otherTail : Tail otherInputs.length (allNodeBytes otherInputs ++ otherRest) :=
        ⟨counted_inputs otherReadable otherRest, opens_allNodeBytes otherReadable.input otherOpens⟩
      obtain ⟨operators, lengths, further⟩ :=
        operatorBytes_append_inj readable.operator otherReadable.operator tail otherTail same
      have each : ∀ input ∈ inputs, ∀ other rest otherRest, other.Readable → Opens rest →
          Opens otherRest → nodeBytes input ++ rest = nodeBytes other ++ otherRest →
            input.outline = other.outline ∧ rest = otherRest :=
        fun input member other rest otherRest => ih input member (readable.input input member)
      have behind : ∀ (nodes : List PlacedNode) rest, (∀ node ∈ nodes, node.Readable) → Opens rest →
          Opens (nodes.flatMap nodeBytes ++ rest) := by
        intro nodes rest readable opens
        rw [← allNodeBytes_eq_flatMap]
        exact opens_allNodeBytes readable opens
      rw [allNodeBytes_eq_flatMap, allNodeBytes_eq_flatMap] at further
      obtain ⟨outlines, rests⟩ := flatMap_append_inj Opens behind each readable.input
        otherReadable.input opens otherOpens lengths further
      rw [PlacedNode.outline, PlacedNode.outline, outlinesOfNodes_eq_map, outlinesOfNodes_eq_map,
        operators, outlines]
      exact ⟨rfl, rests⟩

/-- The bytes of a readable tree determine its outline, so equal fingerprints of trees with
different outlines come from different bytes with the same hash. -/
theorem outline_of_bytes (node other : PlacedNode) (readable : node.Readable)
    (otherReadable : other.Readable) :
    (nodeBytes node = nodeBytes other → node.outline = other.outline) ∧
      (node.outline ≠ other.outline → ofNode node = ofNode other →
        nodeBytes node ≠ nodeBytes other ∧
          Hash64.hash seed (nodeBytes node) = Hash64.hash seed (nodeBytes other)) := by
  have read : nodeBytes node = nodeBytes other → node.outline = other.outline := by
    intro same
    have padded := congrArg (· ++ ([] : List UInt8)) same
    exact (nodeBytes_append_inj readable otherReadable opens_nil opens_nil padded).1
  exact ⟨read, fun differ collision => ⟨fun same => differ (read same), collision⟩⟩

/-- A filter on a column that may be null, and one on a column that may not. -/
theorem outline_of_bytes_filters :
    let filter (nullable : Bool) : PlacedNode :=
      ⟨.columnarToRow, [⟨.gpu ⟨"GpuFilterExec", .operator "FilterExec", [],
          [⟨"GpuAttributeReference", .boolean, nullable, Dict.empty.insert "name" (.text "k"), []⟩],
          none, .empty⟩,
        [⟨.rowToColumnar 1024, [.ofHostPlan (.ofClass "RangeExec")]⟩]⟩]⟩
    (filter true).Readable ∧ (filter false).Readable ∧
      nodeBytes (filter true) = nodeBytes (filter false) ∧
      (filter true).outline = (filter false).outline := by
  intro filter
  have readable : (filter true).Readable := by decide +kernel
  have otherReadable : (filter false).Readable := by decide +kernel
  have same : nodeBytes (filter true) = nodeBytes (filter false) := rfl
  have read := (outline_of_bytes (filter true) (filter false) readable otherReadable).1 same
  exact ⟨readable, otherReadable, same, read⟩

/-- Where a text ends is not told: a class may take over a key and its value. -/
example :
    nodeBytes ⟨.host ⟨⟨"A"⟩, [], [], none, Dict.empty.insert "b" (.text "c")⟩, []⟩ =
      nodeBytes ⟨.host ⟨⟨"Abc"⟩, [], [], none, .empty⟩, []⟩ := by
  decide +kernel

/-- Control characters in a class spell an input. -/
example :
    nodeBytes ⟨.host ⟨⟨"A"⟩, [], [], none, .empty⟩,
        [⟨.host ⟨⟨"B"⟩, [], [], none, .empty⟩, []⟩]⟩ =
      nodeBytes ⟨.host ⟨⟨"A\x01\x00\x00\x00\x00\x00\x00\x00\x02B"⟩, [], [], none, .empty⟩, []⟩ := by
  decide +kernel

/-- Large targets spell transitions: the first three operators and the two behind them are read in
either order. -/
example :
    let leaf : PlacedNode := ⟨.columnarToRow, []⟩
    let behind (input : PlacedNode) : PlacedNode := ⟨.columnarToRow, [input]⟩
    let large (input : PlacedNode) : PlacedNode := ⟨.rowToColumnar 0x0400000000000000, [input]⟩
    let evaluating (inputs : List PlacedNode) : PlacedNode :=
      ⟨.gpu ⟨"G", ⟨"X"⟩, [], [⟨"t", .int, true, .empty, []⟩], none, .empty⟩, inputs⟩
    let plain : PlacedNode := ⟨.gpu ⟨"Gtint", ⟨"X"⟩, [], [], none, .empty⟩, []⟩
    nodeBytes ⟨.columnarToRow, [evaluating [behind plain, large leaf, leaf], leaf]⟩ =
      nodeBytes ⟨.columnarToRow, [plain, large (evaluating [behind leaf, leaf, leaf])]⟩ := by
  decide +kernel

end Fingerprint

/-! What the bytes leave out. -/

/-- Operators of one kind with equal names, expressions and parameters. -/
def PlacedOperator.Agrees : PlacedOperator → PlacedOperator → Prop
  | .gpu operator, .gpu other =>
    operator.name = other.name ∧ operator.allExpressions = other.allExpressions ∧
      operator.params = other.params
  | .host operator, .host other =>
    operator.className = other.className ∧ operator.allExpressions = other.allExpressions ∧
      operator.params = other.params
  | .rowToColumnar _, .rowToColumnar _ | .columnarToRow, .columnarToRow => True
  | _, _ => False

/-- Trees of one shape that agree operator by operator. -/
inductive PlacedNode.Agrees : PlacedNode → PlacedNode → Prop
  | node {operator other inputs otherInputs} : operator.Agrees other →
      List.Forall₂ PlacedNode.Agrees inputs otherInputs →
      PlacedNode.Agrees ⟨operator, inputs⟩ ⟨other, otherInputs⟩

namespace Fingerprint

/-- Of a host expression only the text in the host's language is read, and columns of different
types have the same text. -/
theorem not_forall_nodeBytes_ne :
    ¬ ∀ (config : Config) (plan other : HostPlan) (placement otherPlacement : Placement),
      place Builtin.registry config plan = .ok placement →
      place Builtin.registry config other = .ok otherPlacement →
      ¬ placement.plan.root.Agrees otherPlacement.plan.root →
      nodeBytes placement.plan.root ≠ nodeBytes otherPlacement.plan.root := by
  intro claimed
  let scan (type : DataType) : HostPlan :=
    { HostPlan.ofClass "RangeExec" with expressions := [.column "k" type] }
  let config : Config := { Config.default with sqlEnabled := false }
  have differ : ¬ (PlacedPlan.hostOnly (scan .int)).root.Agrees
      (PlacedPlan.hostOnly (scan .long)).root := by
    intro agrees
    cases agrees with
    | node operators _ =>
        obtain ⟨-, exprs, -⟩ := operators
        have types := congrArg (List.map HostExpr.type) exprs
        cases types
  exact claimed config (scan .int) (scan .long) _ _ rfl rfl differ rfl

end Fingerprint

end GpuPlacement
