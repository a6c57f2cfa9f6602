import PascalStack.Proofs.Pascal.Respelling
import PascalStack.Proofs.Syntax.Sources
import PascalStack.Proofs.Token.Names

/-!
# Letter case does not matter to the parser

The tokens of two texts that differ in the case of letters are of the same kinds, stand at the same
places, and have the same values but for the case of letters. The rules build the same trees from
them but for the case of letters.
-/

namespace PascalStack

def smallText (s : String) : String := String.ofList (Piece.small s.toList)

theorem smallText_eq_iff {s s' : String} :
    smallText s = smallText s' ↔ Piece.small s.toList = Piece.small s'.toList := by
  rw [smallText, smallText, ← String.toList_inj, String.toList_ofList, String.toList_ofList]

/-- The same text but for the case of letters. -/
def SameLetters (s s' : String) : Prop := smallText s = smallText s'

instance (s s' : String) : Decidable (SameLetters s s') := inferInstanceAs (Decidable (_ = _))

def Respelling.small : Respelling where
  name := smallText
  routine := smallText
  operator := smallText
  direction := smallText
  word := smallText
  phrase := smallText

namespace Pascal

def TokenCased : TokenKind → Tree → Tree → Prop
  | .number, v, v' | .bool, v, v' => v = v'
  | _, v, v' => SpeltAlike smallText v v'

theorem TokenCased.alike {k : TokenKind} {v v' : Tree} (h : TokenCased k v v') :
    TokenAlike .small k v v' := by
  have blank (h : SpeltAlike smallText v v') : SpeltAlike (fun _ => "") v v' := by
    obtain ⟨s, s', text, text', -⟩ := h
    exact ⟨s, s', text, text', rfl⟩
  cases k with
  | ident => exact ⟨h, h⟩
  | number | bool | phrase | kwTo | kwDownto | kwReal | kwInteger | kwBoolean | kwString | kwAnd
  | kwOr | kwDiv | kwMod | plus | minus | times | divide | equals | different | lessThan
  | lessEqual | greaterThan | greaterEqual => exact h
  | _ => exact blank h

structure SameButCase (t t' : Token) : Prop where
  kind : t'.kind = t.kind
  line : t'.line = t.line
  offset : t'.offset = t.offset
  value : TokenCased t.kind t.value t'.value

theorem value_of_small {k : TokenKind} {cs ds : List Char}
    (letters : Piece.small ds = Piece.small cs) (numeral : k = .number → ds = cs) :
    SameEnd Eq (TokenCased k) (Piece.valueOf k cs) (Piece.valueOf k ds) := by
  have texts : smallText (String.ofList cs) = smallText (String.ofList ds) := by
    rw [smallText_eq_iff, String.toList_ofList, String.toList_ofList, letters]
  cases k with
  | number =>
    rw [numeral rfl]
    cases Piece.valueOf .number cs <;> exact rfl
  | bool => exact congrArg (fun w => Tree.bool (w == "true".toList)) letters.symm
  | _ => exact ⟨_, _, rfl, rfl, texts⟩

theorem numeral_eq {cs ds : List Char} {p q : Piece} (cutOff : p ∈ Piece.cut cs)
    (cutOff' : q ∈ Piece.cut ds) (same : q.lowered = p.lowered)
    (number : p.kind = .lexeme .number) : q.text = p.text := by
  obtain ⟨kind, letters⟩ := Piece.mk.inj same
  have own := Piece.small_of_no_letter (Piece.no_letter_of_cut cutOff number)
  have own' := Piece.small_of_no_letter (Piece.no_letter_of_cut cutOff' (kind.trans number))
  rw [← own, ← own', letters]

theorem deliveries_of_sameLetters {s s' : String} (same : SameLetters s s') (line : Nat) :
    List.Forall₂ (DeliversAlike SameButCase) (Delivery.ofText line s) (Delivery.ofText line s') := by
  have letters : (Piece.cut s'.toList).map Piece.lowered = (Piece.cut s.toList).map Piece.lowered := by
    rw [← Piece.cut_small, ← Piece.cut_small, smallText_eq_iff.mp same]
  have pieces : List.Forall₂ (fun p q => Piece.lowered q = Piece.lowered p)
      (Piece.cut s.toList) (Piece.cut s'.toList) := by
    have each : List.Forall₂ Eq ((Piece.cut s'.toList).map Piece.lowered)
        ((Piece.cut s.toList).map Piece.lowered) := by rw [letters, List.forall₂_eq_eq_eq]
    rw [List.forall₂_map_left_iff, List.forall₂_map_right_iff] at each
    exact each.flip
  obtain ⟨length, zipped⟩ := List.forall₂_iff_zip.mp pieces
  refine deliveries_of_values (fun _ _ _ _ _ value => ⟨rfl, rfl, rfl, value⟩)
    (List.forall₂_iff_zip.mpr ⟨length, fun both => ?_⟩) line 0 "" ""
  obtain ⟨cutOff, cutOff'⟩ := List.of_mem_zip both
  obtain ⟨kind, small⟩ := Piece.mk.inj (zipped both)
  refine ⟨kind, Piece.length_eq_of_small small, fun k own => value_of_small small ?_⟩
  rintro rfl
  exact numeral_eq cutOff cutOff' (zipped both) own

/-- Two texts that are the same but for the case of ASCII letters have tokens of the same kinds at
the same places, with the same numbers and truth values and with texts that are the same but for the
case of letters, or end with the same fault. Their parses end with the same fault, or both find no
program, or find programs that are the same but for the case of letters. -/
theorem letter_case_does_not_matter (line : Nat) (s s' : String) (same : SameLetters s s') :
    List.Forall₂ SameButCase (Reading.ofText line s).tokens (Reading.ofText line s').tokens ∧
      (Reading.ofText line s').fault = (Reading.ofText line s).fault ∧
      SameEnd Eq (fun t t' => (t = .none ↔ t' = .none) ∧ t.respell .small = t'.respell .small)
        (parse line s).tree (parse line s').tree := by
  have deliveries := deliveries_of_sameLetters same line
  obtain ⟨tokens, fault⟩ := arriving_alike deliveries
  have supplies := supplies_alike (L := likeness .small)
    (fun _ _ same => ⟨same.kind, same.value.alike⟩) deliveries
  have trees : SameEnd Eq (fun t t' => t.respell .small = t'.respell .small)
      (parse line s).tree (parse line s').tree := parseSupply_alike (kept_likeness _) supplies
  rw [Reading.ofText, Reading.ofText, tokens_ofDeliveries, tokens_ofDeliveries, fault_ofDeliveries,
    fault_ofDeliveries]
  refine ⟨tokens, fault, trees.imp fun t t' same => ⟨?_, same⟩⟩
  rw [← Tree.respell_eq_none (ρ := .small), same, Tree.respell_eq_none]

/-- A program in small letters and in mixed ones. -/
theorem mixed_letters_parsed_alike :
    let s := "program p;begin q:=2 end."
    let s' := "PROGRAM P;Begin Q:=2 eND."
    SameLetters s s' ∧
      List.Forall₂ SameButCase (Reading.ofText 1 s).tokens (Reading.ofText 1 s').tokens ∧
      ∃ t t', (parse 1 s).tree = .ok t ∧ (parse 1 s').tree = .ok t' ∧ t ≠ .none ∧ t' ≠ .none ∧
        t.respell .small = t'.respell .small := by
  intro s s'
  have same : SameLetters s s' := by decide
  have found : ((Syntax.parsed? s).any fun _ => true) = true := by decide +kernel
  obtain ⟨t, parsed, present, -⟩ := Syntax.exists_parsed found
  obtain ⟨tokens, -, trees⟩ := letter_case_does_not_matter 1 s s' same
  rw [parsed] at trees
  cases parsed' : (parse 1 s').tree with
  | error f =>
    rw [parsed'] at trees
    exact trees.elim
  | ok t' =>
    rw [parsed'] at trees
    obtain ⟨absent, alike⟩ := trees
    exact ⟨same, tokens, t, t', parsed, rfl, present, fun none => present (absent.mpr none), alike⟩

end Pascal

end PascalStack
