/-
# What rules ask for

A rule that gives up tells what it wanted. The texts that it may ask for stand in the rules that it
is made of, so a rule asks for nothing that none of its parts asks for (`GrammarRule.NeverAsks`).
This is a class, and instances follow the rules down to those that require something.

After the word that tells its kind, a method asks for many things, but not for such a word again
(`neverAsks_methodHead`).

Key definitions: `GrammarRule.NeverAsks`, `kindWordTexts`.
Key theorems: `NeverAsks.bind`, `NeverAsks.iterate`, `neverAsks_methodHead`.
-/
import SqlDoc.Syntax.Routine

namespace SqlDoc.GrammarRule

variable {α β σ : Type} {texts : List String}

/-- If a run of the rule gives up, it has asked for none of the texts. -/
class NeverAsks (r : GrammarRule α) (texts : List String) : Prop where
  expected : ∀ ⦃s next : ParseState⦄ ⦃e : SyntaxError⦄, r.run s = (.error e, next) →
    e.expected ∉ texts

namespace NeverAsks

instance done (a : α) : (GrammarRule.done a).NeverAsks texts where
  expected _ _ _ hrun := by cases hrun

instance pure (a : α) : (Pure.pure a : GrammarRule α).NeverAsks texts :=
  done a

theorem missing {expected : String} (h : expected ∉ texts) :
    (GrammarRule.missing expected : GrammarRule α).NeverAsks texts where
  expected s next e hrun := by
    have he : e = .atToken expected (s.key 0).1 (s.key 0).2.stop := by
      cases hrun
      rfl
    have hexpected : e.expected = expected := by
      rw [he]
      unfold SyntaxError.atToken
      split <;> rfl
    rwa [hexpected]

instance bind (r : GrammarRule α) (f : α → GrammarRule β) [hr : r.NeverAsks texts]
    [hf : ∀ a, (f a).NeverAsks texts] : (r >>= f).NeverAsks texts where
  expected s next e hrun := by
    have hrun : (r.bind f).run s = (.error e, next) := hrun
    rw [run_bind] at hrun
    split at hrun
    · exact (hf _).expected hrun
    · rename_i hfirst
      cases hrun
      exact hr.expected hfirst

instance map (f : α → β) (r : GrammarRule α) [r.NeverAsks texts] : (f <$> r).NeverAsks texts := by
  rw [map_eq_pure_bind]
  infer_instance

instance ite (c : Prop) [Decidable c] (r r' : GrammarRule α) [r.NeverAsks texts]
    [r'.NeverAsks texts] : (if c then r else r').NeverAsks texts := by
  split <;> infer_instance

-- The search counts an instance that stands under a binder twice. It takes the next two, which have
-- none, where `bind` would grow too large.
instance andThen (r : GrammarRule α) (r' : GrammarRule β) [r.NeverAsks texts]
    [r'.NeverAsks texts] : (r >>= fun _ => r').NeverAsks texts :=
  bind r _

instance branch (test : GrammarRule Bool) (r r' : GrammarRule α) [test.NeverAsks texts]
    [r.NeverAsks texts] [r'.NeverAsks texts] :
    (test >>= fun b => if b then r else r').NeverAsks texts :=
  bind test _

instance look (k : Nat) (next : Option Glance → GrammarRule α)
    [h : ∀ seen, (next seen).NeverAsks texts] : (GrammarRule.look k next).NeverAsks texts where
  expected _ _ _ hrun := (h _).expected hrun

instance lineStart (k : Nat) (next : Bool → GrammarRule α) [h : ∀ b, (next b).NeverAsks texts] :
    (GrammarRule.lineStart k next).NeverAsks texts where
  expected _ _ _ hrun := (h _).expected hrun

instance remaining (next : Nat → GrammarRule α) [h : ∀ n, (next n).NeverAsks texts] :
    (GrammarRule.remaining next).NeverAsks texts where
  expected _ _ _ hrun := (h _).expected hrun

instance bump (next : GrammarRule α) [h : next.NeverAsks texts] :
    (GrammarRule.bump next).NeverAsks texts where
  expected _ _ _ hrun := h.expected hrun

instance setName (name : Name) (next : GrammarRule α) [h : next.NeverAsks texts] :
    (GrammarRule.setName name next).NeverAsks texts where
  expected _ _ _ hrun := h.expected hrun

instance setKind (kind : NodeKind) (next : GrammarRule α) [h : next.NeverAsks texts] :
    (GrammarRule.setKind kind next).NeverAsks texts where
  expected _ _ _ hrun := h.expected hrun

instance node (kind : NodeKind) (inside : GrammarRule β) (next : β → GrammarRule α)
    [hinside : inside.NeverAsks texts] [hnext : ∀ b, (next b).NeverAsks texts] :
    (GrammarRule.node kind inside next).NeverAsks texts where
  expected _ _ _ hrun := by
    simp only [GrammarRule.run] at hrun
    split at hrun
    · rename_i hfails
      cases hrun
      exact hinside.expected hfails
    · exact (hnext _).expected hrun

instance iterateUpTo (step : σ → GrammarRule (Option σ)) [h : ∀ s, (step s).NeverAsks texts]
    (count : Nat) (s : σ) : (GrammarRule.iterateUpTo step count s).NeverAsks texts :=
  iterateUpTo_induction (P := (·.NeverAsks texts)) done (fun s f _ => bind (step s) f) count s

instance iterate (step : σ → GrammarRule (Option σ)) [∀ s, (step s).NeverAsks texts] (s : σ) :
    (GrammarRule.iterate step s).NeverAsks texts :=
  remaining _

instance repeatWhile (step : GrammarRule Bool) [step.NeverAsks texts] :
    (GrammarRule.repeatWhile step).NeverAsks texts :=
  iterate _ ()

instance times (n : Nat) (rule : GrammarRule Unit) [rule.NeverAsks texts] :
    (GrammarRule.times n rule).NeverAsks texts := by
  induction n with
  | zero => exact done ()
  | succ n ih => exact bind rule _

instance and (r r' : GrammarRule Bool) [r.NeverAsks texts] [r'.NeverAsks texts] :
    (r <&&> r').NeverAsks texts := by
  have h (b : Bool) :
      (match b with | true => r' | false => Pure.pure b : GrammarRule Bool).NeverAsks texts := by
    cases b <;> infer_instance
  exact bind r _

instance or (r r' : GrammarRule Bool) [r.NeverAsks texts] [r'.NeverAsks texts] :
    (r <||> r').NeverAsks texts := by
  have h (b : Bool) :
      (match b with | true => Pure.pure b | false => r' : GrammarRule Bool).NeverAsks texts := by
    cases b <;> infer_instance
  exact bind r _

/-- A glance, and then a rule for the end and one for every token. -/
instance key (n : Nat) (f : Option Glance → GrammarRule α) [hend : (f none).NeverAsks texts]
    [htoken : ∀ t, (f (some t)).NeverAsks texts] : (GrammarRule.key n >>= f).NeverAsks texts := by
  have hkey : (GrammarRule.key n).NeverAsks texts := look n _
  have h (seen : Option Glance) : (f seen).NeverAsks texts := by
    cases seen with
    | none => exact hend
    | some t => exact htoken t
  exact bind _ f

end NeverAsks

/-! ### Rules that ask for nothing -/

instance (n : Nat) (p : Glance → Bool) : (at? n p).NeverAsks texts :=
  .look _ _

instance (n : Nat) (kind : SqlKind) : (atKind n kind).NeverAsks texts :=
  .look _ _

instance (n : Nat) (words : List String) : (atAnyWord n words).NeverAsks texts :=
  .look _ _

instance (n : Nat) (word : String) : (atWord n word).NeverAsks texts :=
  .look _ _

instance (n : Nat) : (atName n).NeverAsks texts :=
  .look _ _

instance (n : Nat) (text : String) : (atOperator n text).NeverAsks texts :=
  .look _ _

instance : atEnd.NeverAsks texts :=
  .look _ _

instance (n : Nat) : (startsLine n).NeverAsks texts :=
  .lineStart _ _

instance (n : Nat) : (atTerminator n).NeverAsks texts := by
  unfold atTerminator
  infer_instance

instance : take.NeverAsks texts :=
  .bump _

instance (test : GrammarRule Bool) [test.NeverAsks texts] : (takeIf test).NeverAsks texts := by
  unfold takeIf
  infer_instance

instance (word : String) : (takeWord word).NeverAsks texts := by
  unfold takeWord
  infer_instance

instance (kind : SqlKind) : (takeKind kind).NeverAsks texts := by
  unfold takeKind
  infer_instance

instance : skipParens.NeverAsks texts := by
  unfold skipParens
  infer_instance

instance (stop : SqlKind → Bool) : (skipUntil stop).NeverAsks texts := by
  unfold skipUntil
  infer_instance

instance (n : Name) : (namePart n).NeverAsks texts :=
  .look _ _

instance (inside : GrammarRule Unit) [inside.NeverAsks texts] :
    (modifier inside).NeverAsks texts := by
  unfold modifier
  infer_instance

instance (word : String) : (keywordNode word).NeverAsks texts := by
  unfold keywordNode leaf
  infer_instance

instance (item : GrammarRule Unit) [item.NeverAsks texts] :
    (separatedByCommas item).NeverAsks texts := by
  unfold separatedByCommas
  infer_instance

instance : routineModifiers.NeverAsks texts := by
  unfold routineModifiers routineModifier
  infer_instance

instance : notNull.NeverAsks texts := by
  unfold notNull
  infer_instance

instance (n : Name) : (typeAttribute n).NeverAsks texts := by
  unfold typeAttribute
  infer_instance

/-! ### The rest of a method -/

theorem neverAsks_expectWord {word : String} (h : s!"`{word}`" ∉ texts) :
    (expectWord word).NeverAsks texts := by
  have hmissing : (missing s!"`{word}`" : GrammarRule Unit).NeverAsks texts := .missing h
  unfold expectWord
  infer_instance

theorem neverAsks_expectKind {kind : SqlKind} {what : String} (h : what ∉ texts) :
    (expectKind kind what).NeverAsks texts := by
  have hmissing : (missing what : GrammarRule Unit).NeverAsks texts := .missing h
  unfold expectKind
  infer_instance

/-- What is asked for where the word that tells the kind of a method is missing. -/
def kindWordTexts : List String :=
  ["`PROCEDURE` or `FUNCTION`", "`CONSTRUCTOR`"]

instance : name.NeverAsks kindWordTexts := by
  have hmissing : (missing "a name" : GrammarRule Unit).NeverAsks kindWordTexts :=
    .missing (by decide)
  unfold name
  infer_instance

instance : declaredName.NeverAsks kindWordTexts := by
  unfold declaredName identifier
  infer_instance

instance (base : Name) : (typeWords base).NeverAsks kindWordTexts := by
  have hword : (expectWord "TO").NeverAsks kindWordTexts := neverAsks_expectWord (by decide)
  unfold typeWords
  split <;> infer_instance

instance (base : Name) : (timeZone base).NeverAsks kindWordTexts := by
  have hword : (expectWord "TIME").NeverAsks kindWordTexts := neverAsks_expectWord (by decide)
  have hword' : (expectWord "ZONE").NeverAsks kindWordTexts := neverAsks_expectWord (by decide)
  unfold timeZone
  infer_instance

instance : databaseLink.NeverAsks kindWordTexts := by
  unfold databaseLink
  infer_instance

instance : characterSet.NeverAsks kindWordTexts := by
  unfold characterSet
  infer_instance

instance : typeExpr.NeverAsks kindWordTexts := by
  unfold typeExpr
  infer_instance

instance : expression.NeverAsks kindWordTexts := by
  have hmissing : (missing "an expression" : GrammarRule Unit).NeverAsks kindWordTexts :=
    .missing (by decide)
  unfold expression
  infer_instance

instance : defaultValue.NeverAsks kindWordTexts := by
  unfold defaultValue
  infer_instance

instance : parameterList.NeverAsks kindWordTexts := by
  have hopen : (expectKind .lparen "`(`").NeverAsks kindWordTexts :=
    neverAsks_expectKind (by decide)
  have hclose : (expectKind .rparen "`,` or `)`").NeverAsks kindWordTexts :=
    neverAsks_expectKind (by decide)
  have hparameter : parameter.NeverAsks kindWordTexts := by
    unfold parameter
    infer_instance
  unfold parameterList parenthesised
  infer_instance

instance : returnClause.NeverAsks kindWordTexts := by
  have hword : (expectWord "RETURN").NeverAsks kindWordTexts := neverAsks_expectWord (by decide)
  unfold returnClause
  infer_instance

/-- From its name on, a method does not ask for the word that tells its kind. -/
instance neverAsks_methodHead (kind : MethodKind) (inObject : Bool) :
    (methodHead kind inObject).NeverAsks kindWordTexts := by
  have hend : expectSemicolon.NeverAsks kindWordTexts := neverAsks_expectKind (by decide)
  unfold methodHead
  infer_instance

end SqlDoc.GrammarRule
