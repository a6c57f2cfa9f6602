import PascalStack.Proofs.Pascal.Respelling
import PascalStack.Proofs.Token.Layout

/-!
# Layout does not matter

The tokens of a text come from its lexemes alone, and the outcome of a parse from the kinds and
values of the tokens. So a text whose lexemes are laid out anew has the same tokens, and its parse
has the same outcome.
-/

namespace PascalStack.Pascal

structure SameToken (t t' : Token) : Prop where
  kind : t'.kind = t.kind
  value : t'.value = t.value
  formed : Syntax.TokenValue t.kind t.value

theorem SameToken.alike {t t' : Token} (h : SameToken t t') :
    t'.kind = t.kind ∧ TokenAlike {} t.kind t.value t'.value := by
  refine ⟨h.kind, ?_⟩
  rw [h.value]
  exact tokenAlike_self h.formed

theorem deliveries_of_lexemes (ps : List Piece) (line line' offset offset' : Nat)
    (report report' : String) :
    List.Forall₂ (DeliversAlike SameToken) (Delivery.ofPieces line offset report ps)
      (Delivery.ofPieces line' offset' report' (ps.filter Piece.isLexeme)) := by
  induction ps generalizing line line' offset offset' report report' with
  | nil => exact .cons .none .nil
  | cons p ps ih =>
    obtain ⟨kind, text⟩ := p
    cases kind with
    | blank | comment | newline | illegal => exact ih _ _ _ _ _ _
    | lexeme kind =>
      rw [List.filter_cons_of_pos rfl, Delivery.ofPieces, Delivery.ofPieces]
      cases value : Piece.valueOf kind text with
      | error f => exact .cons rfl .nil
      | ok v =>
        have same : SameToken ⟨kind, v, line, offset⟩ ⟨kind, v, line', offset'⟩ :=
          ⟨rfl, rfl, Syntax.tokenValue_of_valueOf value⟩
        exact .cons (.some same) (ih _ _ _ _ _ _)

theorem out_of_legal {ps : List Piece} (legal : ∀ p ∈ ps, p.kind ≠ .illegal)
    (start line offset : Nat) :
    (Reading.ofDeliveries (fun _ => "") start (Delivery.ofPieces line offset "" ps)).out = "" := by
  induction ps generalizing start line offset with
  | nil => rfl
  | cons p ps ih =>
    obtain ⟨kind, text⟩ := p
    rw [List.forall_mem_cons] at legal
    cases kind with
    | blank | comment | newline => exact ih legal.2 _ _ _
    | illegal => exact absurd rfl legal.1
    | lexeme kind =>
      rw [Delivery.ofPieces]
      cases Piece.valueOf kind text with
      | error f => rfl
      | ok v =>
        rw [Reading.ofDeliveries]
        simp only [ih legal.2, String.append_empty]

theorem pairs_of_same {ts ts' : List Token} (h : List.Forall₂ SameToken ts ts') :
    ts.map (fun t => (t.kind, t.value)) = ts'.map (fun t => (t.kind, t.value)) := by
  induction h with
  | nil => rfl
  | cons same _ ih => rw [List.map_cons, List.map_cons, ih, same.kind, same.value]

theorem tokens_of_lexemes (line : Nat) (text : String) :
    let ds := Delivery.ofPieces 1 0 "" (Piece.lexemes text.toList)
    (Reading.ofText line text).tokens.map (fun t => (t.kind, t.value)) =
        (arriving ds).map (fun t => (t.kind, t.value)) ∧
      (Reading.ofText line text).fault = spoiled ds := by
  intro ds
  obtain ⟨tokens, fault⟩ :=
    arriving_alike (deliveries_of_lexemes (Piece.cut text.toList) line 1 0 0 "" "")
  rw [Reading.ofText, tokens_ofDeliveries, fault_ofDeliveries]
  exact ⟨pairs_of_same tokens, fault.symm⟩

theorem eq_of_sameEnd {x x' : Except Fault Tree}
    (h : SameEnd Eq (fun t t' : Tree => t.respell {} = t'.respell {}) x x') : x = x' := by
  cases x with
  | error f =>
    cases x' with
    | error f' => exact congrArg _ h
    | ok => exact h.elim
  | ok t =>
    cases x' with
    | error => exact h.elim
    | ok t' =>
      simp only [SameEnd, Tree.respell_default] at h
      rw [h]

theorem parse_of_lexemes (line : Nat) (text : String) :
    (parse line text).tree = (parseSupply 1
      ((Delivery.ofPieces 1 0 "" (Piece.lexemes text.toList)).map (supply id))).tree := by
  apply eq_of_sameEnd
  rw [parse]
  exact parseSupply_alike (kept_likeness _)
    (supplies_alike (fun _ _ => SameToken.alike)
      (deliveries_of_lexemes (Piece.cut text.toList) line 1 0 0 "" ""))

/-- A text whose lexemes are laid out with spacing between each two has tokens of the same kinds and
values, or ends with the same fault, reports nothing, and its parse has the same outcome. -/
theorem layout_does_not_matter (line line' : Nat) (s s' : String)
    (laid : Piece.LaidOut ((Piece.lexemes s.toList).map Piece.text) s'.toList) :
    let r := Reading.ofText line s
    let r' := Reading.ofText line' s'
    r'.tokens.map (fun t => (t.kind, t.value)) = r.tokens.map (fun t => (t.kind, t.value)) ∧
      r'.fault = r.fault ∧ r'.out = "" ∧ (parse line' s').tree = (parse line s).tree := by
  intro r r'
  have same := Piece.lexemes_of_laidOut laid
  have first := tokens_of_lexemes line s
  have second := tokens_of_lexemes line' s'
  rw [same] at second
  refine ⟨second.1.trans first.1.symm, second.2.trans first.2.symm, ?_, ?_⟩
  · exact out_of_legal (Piece.legal_of_laidOut laid) _ _ _
  · rw [parse_of_lexemes line' s', parse_of_lexemes line s, same]

/-- A range after a number, laid out over two lines. -/
theorem range_laid_out_same_outcome :
    Piece.LaidOut ((Piece.lexemes "1.5..x(*c*)".toList).map Piece.text) "1.5 ..\n\tx".toList ∧
      (Reading.ofText 1 "1.5 ..\n\tx").tokens.map (fun t => (t.kind, t.value)) =
        (Reading.ofText 1 "1.5..x(*c*)").tokens.map (fun t => (t.kind, t.value)) ∧
      (Reading.ofText 1 "1.5 ..\n\tx").out = "" ∧
      (parse 1 "1.5 ..\n\tx").tree = (parse 1 "1.5..x(*c*)").tree := by
  have lexemes : (Piece.lexemes "1.5..x(*c*)".toList).map Piece.text =
      ["1.5".toList, "..".toList, "x".toList] := by decide
  have laid : Piece.LaidOut ((Piece.lexemes "1.5..x(*c*)".toList).map Piece.text)
      "1.5 ..\n\tx".toList := by
    rw [lexemes]
    exact .cons "1.5".toList (w := [' ']) nofun (by simp [Piece.isSpacing, Piece.isSkipped])
      (.cons "..".toList (w := ['\n', '\t']) nofun (by simp [Piece.isSpacing, Piece.isSkipped])
        (.single "x".toList))
  obtain ⟨tokens, -, silent, tree⟩ := layout_does_not_matter 1 1 _ _ laid
  exact ⟨laid, tokens, silent, tree⟩

end PascalStack.Pascal
