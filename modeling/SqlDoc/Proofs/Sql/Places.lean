/-
# Reported positions are places in the file

A token of a script spans the characters that it was read from, counted from the start of the file,
and a token of a documentation comment in the script begins at its character of the file, not of the
comment.

Key theorem: `lexSql_places`.
-/
import SqlDoc.Proofs.Doc.Places
import SqlDoc.Proofs.Sql.Lossless

namespace SqlDoc

/-- A token after `k` characters of a script is the piece of the script from there, and its span is
from the position of that place to the position of the piece's end. If the token is documentation,
a token after `j` characters of the documentation begins at the position of the place after `k + j`
characters of the script. -/
theorem lexSql_places {source : String} {filename : Option String} {before after : List SqlToken}
    {t : SqlToken} (h : (lexSql source filename).tokens = before ++ t :: after) :
    let place := fun k => (Position.start.inFile filename).advance (source.toList.take k)
    let k := (tokensText before).toList.length
    let length := t.text.toList.length
    t.text.toList = (source.toList.drop k).take length ∧
      t.span = .between (place k) (place (k + length)) ∧
      (t.kind = .docComment → ∀ (dbefore dafter : List DocToken) (d : DocToken),
        (lexDoc t.text t.start).1 = dbefore ++ d :: dafter →
          let j := (tokensText dbefore).toList.length
          d.text.toList = (t.text.toList.drop j).take d.text.toList.length ∧
            d.start = place (k + j)) := by
  intro place k length
  obtain ⟨cut, hout, hpasses, htokens, -⟩ := lexSql_cut h
  obtain ⟨next, hstep, -⟩ := Sql.cooked_cons hout htokens
  have hcut : cut.position = place k := hpasses.position_take
  have hnext : next.position = place (k + length) := by
    have := (hpasses.trans hstep.passes).position_take
    rwa [List.length_append] at this
  refine ⟨?_, ?_, ?_⟩
  · have hdrop : source.toList.drop k = cut.rest := hpasses.drop
    rw [hdrop]
    exact hstep.passes.take.symm
  · rw [hstep.span, hcut, hnext]
  · intro _ dbefore dafter d hd j
    obtain ⟨rest, htext, hstart⟩ := lexDoc_cut hd
    constructor
    · rw [htext, List.drop_left, List.take_left]
    · have hmore : cut.rest =
          (tokensText dbefore).toList ++ (d.text.toList ++ (rest ++ next.rest)) := by
        rw [hstep.passes.text, htext, List.append_assoc, List.append_assoc]
      have ht : t.start = cut.position := by rw [Token.start, hstep.span, Span.between]
      rw [hstart, ht]
      exact hpasses.advance_take hmore

/-- In a comment that goes on after `\r\n`, the name on the second line is at its place there. -/
theorem lexSql_places_secondLine :
    ∃ (before after : List SqlToken) (t : SqlToken) (dbefore dafter : List DocToken) (d : DocToken),
      (lexSql "x /** a\r\n b */").tokens = before ++ t :: after ∧ t.kind = .docComment ∧
        (lexDoc t.text t.start).1 = dbefore ++ d :: dafter ∧ d.text = "b" ∧
        d.start = Position.start.advance "x /** a\r\n ".toList := by
  let tokens := (lexSql "x /** a\r\n b */").tokens
  let t : SqlToken :=
    { kind := .docComment
      text := "/** a\r\n b */"
      value := " a\r\n b "
      span := .between ⟨1, 3, none⟩ ⟨2, 6, none⟩ }
  let dtokens := (lexDoc t.text t.start).1
  have ht : tokens = tokens.take 2 ++ t :: tokens.drop 3 := by decide +kernel
  have hd : dtokens = dtokens.take 5 ++
      .plain .identifier "b" (.between ⟨2, 2, none⟩ ⟨2, 3, none⟩) :: dtokens.drop 6 := by
    decide +kernel
  refine ⟨_, _, t, _, _, _, ht, rfl, hd, rfl, ?_⟩
  have hstart := ((lexSql_places ht).2.2 rfl _ _ _ hd).2
  exact hstart.trans (by decide +kernel)

end SqlDoc
