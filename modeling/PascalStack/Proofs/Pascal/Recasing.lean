import PascalStack.Proofs.Pascal.Respelling
import PascalStack.Proofs.Tree.Spelling

/-!
# Parses of texts that differ in the case of reserved words

The tokens of a text and of the text with its reserved words recased are alike, so both texts are
parsed to trees that the plainest respelling makes the same, or both are not parsed.
-/

namespace PascalStack.Pascal

variable {cs ds : List Char} {k : TokenKind}

theorem plain_direction_eq (same : ds = "to".toList ↔ cs = "to".toList) :
    Respelling.plain.direction (String.ofList cs) =
      Respelling.plain.direction (String.ofList ds) := by
  have up (es : List Char) : String.ofList es = "to" ↔ es = "to".toList := by
    rw [← String.toList_inj, String.toList_ofList]
  simp only [Respelling.plain, up, same]

theorem plain_word_eq (letters : Piece.small ds = Piece.small cs)
    (known : Piece.small cs ∈ typeWords) :
    Respelling.plain.word (String.ofList cs) = Respelling.plain.word (String.ofList ds) := by
  simp only [Respelling.plain, String.toList_ofList, letters, List.contains_iff_mem, known, if_true]

def unworded : List TokenKind :=
  [.number, .ident, .phrase, .plus, .minus, .times, .divide, .equals, .different, .lessThan,
    .lessEqual, .greaterThan, .greaterEqual]

theorem word_of_kind (h : (cs, k) ∈ Piece.reservedWords) :
    (k = .kwDownto → cs = "downto".toList) ∧
      (k ∈ [TokenKind.kwReal, .kwInteger, .kwBoolean, .kwString] → cs ∈ typeWords) ∧
      k ∉ unworded := by
  have each : ∀ entry ∈ Piece.reservedWords, (entry.2 = .kwDownto → entry.1 = "downto".toList) ∧
      (entry.2 ∈ [TokenKind.kwReal, .kwInteger, .kwBoolean, .kwString] → entry.1 ∈ typeWords) ∧
      entry.2 ∉ unworded := by
    decide
  exact each _ h

theorem eq_of_inSmall (letters : Piece.small ds = Piece.small cs)
    (small : Piece.inSmall ds = Piece.inSmall cs) (own : Piece.inSmall ds = true) : ds = cs := by
  have first : Piece.small ds = ds := beq_iff_eq.mp own
  have second : Piece.small cs = cs := beq_iff_eq.mp (small.symm.trans own)
  rw [← first, letters, second]

theorem value_of_recased (word : (Piece.small cs, k) ∈ Piece.reservedWords)
    (letters : Piece.small ds = Piece.small cs)
    (manner : Piece.SameManner ⟨.lexeme k, cs⟩ ⟨.lexeme k, ds⟩) :
    SameEnd Eq (TokenAlike Respelling.plain k) (Piece.valueOf k cs) (Piece.valueOf k ds) := by
  obtain ⟨down, type, worded⟩ := word_of_kind word
  have operator (sign : k ∈ [TokenKind.kwDiv, .kwMod, .kwAnd, .kwOr]) :
      SpeltAlike Respelling.plain.operator (.str (String.ofList cs)) (.str (String.ofList ds)) := by
    obtain ⟨small, capital⟩ := manner k (List.mem_cons_of_mem _ sign) rfl
    refine ⟨_, _, rfl, rfl, (plain_operator_eq letters small (capital ?_)).symm⟩
    rintro rfl
    revert sign
    decide
  have ofType (named : k ∈ [TokenKind.kwReal, .kwInteger, .kwBoolean, .kwString]) :
      SpeltAlike Respelling.plain.word (.str (String.ofList cs)) (.str (String.ofList ds)) :=
    ⟨_, _, rfl, rfl, plain_word_eq letters (type named)⟩
  cases k with
  | number | ident | phrase | plus | minus | times | divide | equals | different | lessThan
  | lessEqual | greaterThan | greaterEqual => exact absurd (by decide) worded
  | bool => exact congrArg (fun w => Tree.bool (w == "true".toList)) letters.symm
  | kwTo =>
    have small := (manner .kwTo List.mem_cons_self rfl).1
    refine ⟨_, _, rfl, rfl, plain_direction_eq ⟨?_, ?_⟩⟩
    · rintro rfl
      exact (eq_of_inSmall letters small rfl).symm
    · rintro rfl
      exact (eq_of_inSmall letters.symm small.symm rfl).symm
  | kwDownto =>
    have other {es : List Char} (spelt : Piece.small es = "downto".toList) :
        es ≠ "to".toList := by
      rintro rfl
      revert spelt
      decide
    exact ⟨_, _, rfl, rfl, plain_direction_eq
      (iff_of_false (other (letters.trans (down rfl))) (other (down rfl)))⟩
  | kwDiv | kwMod | kwAnd | kwOr => exact operator (by decide)
  | kwReal | kwInteger | kwBoolean | kwString => exact ofType (by decide)
  | _ => exact ⟨_, _, rfl, rfl, rfl⟩

theorem value_of_recases (recases : Piece.Recases ⟨.lexeme k, cs⟩ ⟨.lexeme k, ds⟩)
    (manner : Piece.SameManner ⟨.lexeme k, cs⟩ ⟨.lexeme k, ds⟩)
    (word : Piece.isReserved k = true → (Piece.small cs, k) ∈ Piece.reservedWords) :
    SameEnd Eq (TokenAlike Respelling.plain k) (Piece.valueOf k cs) (Piece.valueOf k ds) := by
  rcases recases with same | ⟨reserved, letters⟩
  · cases same
    cases value : Piece.valueOf k cs with
    | error f => exact rfl
    | ok v => exact tokenAlike_self (Syntax.tokenValue_of_valueOf value)
  · exact value_of_recased (word reserved) (Piece.mk.inj letters).2 manner

theorem supplies_of_recased {ps qs : List Piece}
    (recased : List.Forall₂ Piece.Recases ps qs) (manner : List.Forall₂ Piece.SameManner ps qs)
    (words : ∀ p ∈ ps, ∀ kind, p.kind = .lexeme kind → Piece.isReserved kind = true →
      (Piece.small p.text, kind) ∈ Piece.reservedWords) (line offset : Nat) (report : String) :
    List.Forall₂ (SuppliesAlike (likeness Respelling.plain))
      ((Delivery.ofPieces line offset report ps).map (supply id))
      ((Delivery.ofPieces line offset report qs).map (supply id)) := by
  obtain ⟨length, recases⟩ := List.forall₂_iff_zip.mp recased
  have manners {p q : Piece} (both : (p, q) ∈ ps.zip qs) : p.SameManner q :=
    (List.forall₂_iff_zip.mp manner).2 both
  refine supplies_alike (R := fun t t' => t'.kind = t.kind ∧
    TokenAlike Respelling.plain t.kind t.value t'.value) (fun _ _ same => same)
    (deliveries_of_values (V := TokenAlike Respelling.plain) (fun _ _ _ _ _ value => ⟨rfl, value⟩)
      (List.forall₂_iff_zip.mpr ⟨length, fun {p q} both => ?_⟩) line offset report report)
  obtain ⟨kind, text⟩ := p
  obtain ⟨kind', text'⟩ := q
  obtain ⟨rfl, small⟩ : kind' = kind ∧ Piece.small text' = Piece.small text :=
    Piece.mk.inj (recases both).lowered_eq
  refine ⟨rfl, Piece.length_eq_of_small small, ?_⟩
  rintro k rfl
  exact value_of_recases (recases both) (manners both) (words _ (List.of_mem_zip both).1 k rfl)

theorem parse_recased {s s' : String} (recased : Recased s s') (manner : SameManner s s')
    (line : Nat) :
    SameEnd Eq (fun t t' => t.respell Respelling.plain = t'.respell Respelling.plain)
      (parse line s).tree (parse line s').tree := by
  have words : ∀ p ∈ Piece.cut s.toList, ∀ kind, p.kind = .lexeme kind →
      Piece.isReserved kind = true → (Piece.small p.text, kind) ∈ Piece.reservedWords :=
    fun _ cutOff _ => Piece.word_of_cut cutOff
  have supplies := supplies_of_recased (recased_iff.mp recased) manner words line 0 ""
  rw [parse, parse]
  exact parseSupply_alike (kept_likeness _) supplies

end PascalStack.Pascal
