/-
# What a file fails with is reported once, and last

A file is read and resolved in turns: each statement is resolved before the next is read, and when
reading ends, with an error or without, the scopes that are still open end (`FileRun`). What that
leaves and reports is the document or the error, as if all had been read before it was resolved
(`FileRun.close_upTo`). What resolving reports are warnings, whether the file fails or not; the error
of the file, if it has one, comes after them (`documentFile_reports`).

Key definitions: `FileRun`, `FileRun.upTo`, `FileRun.close`.
Key theorems: `FileRun.upTo_of_left`, `FileRun.close_upTo`, `documentFile_reports`.
-/
import SqlDoc.Document.Basic
import SqlDoc.Proofs.Context.Orphans
import SqlDoc.Proofs.Context.Warning
import SqlDoc.Proofs.Syntax.Feed

namespace SqlDoc

theorem ParseError.severity_toDiagnostic (e : ParseError) : e.toDiagnostic.severity = .error := by
  cases e <;> rfl

/-! ### Reading and resolving in turns -/

/-- A file on its way through the reader and the resolver. -/
structure FileRun where
  feed : StatementFeed
  resolver : Resolver
  /-- The statements that have been read and resolved. -/
  trees : List SyntaxTree := []
  /-- The error that has ended the file. -/
  failure : Option ParseError := none

namespace FileRun

/-- The start of a file. -/
def start (config : DocConfig) (source : String) (filename : Option String) : FileRun where
  feed := .ofSource (withoutByteOrderMark source) filename
  resolver := { warnOrphans := config.warnOrphans }

/-- Takes at most `n` turns. In each the next statement is read and resolved; an error and the end of
the file end the turns. -/
def upTo : Nat → FileRun → FileRun
  | 0, run => run
  | n + 1, run =>
    match run.feed.pull with
    | (none, feed) => { run with feed }
    | (some (.error e), feed) => { run with feed, failure := some e }
    | (some (.ok t), feed) =>
      upTo n { run with feed, resolver := run.resolver.resolveTree t, trees := run.trees ++ [t] }

/-- The end of a file: the scopes that are open end, and then its error is reported. -/
def close (config : DocConfig) (filename : Option String) (run : FileRun) :
    Except FileError Document × List Diagnostic :=
  let r := run.resolver.finish
  match run.failure with
  | none =>
    let resolution : Resolution :=
      { contexts := r.table.arena, comments := r.table.comments, units := r.table.units }
    (.ok { filename, trees := run.trees, resolution }, r.reports)
  | some error =>
    let e : FileError := { error, format := config.format }
    (.error e, r.reports ++ [e.toDiagnostic])

theorem upTo_of_left {run : FileRun} {parsed : Parsed} (hfeed : run.feed.Left parsed.items)
    (hfailure : run.failure = none) {n : Nat} (hn : parsed.trees.length < n) :
    (run.upTo n).resolver = parsed.trees.foldl Resolver.resolveTree run.resolver ∧
      (run.upTo n).trees = run.trees ++ parsed.trees ∧ (run.upTo n).failure = parsed.error := by
  obtain ⟨trees, error⟩ := parsed
  induction trees generalizing run n with
  | nil =>
    obtain ⟨n, rfl⟩ : ∃ m, n = m + 1 := Nat.exists_eq_succ_of_ne_zero (by omega)
    have hpull := (StatementFeed.pull_of_left hfeed).1
    unfold upTo
    cases hnext : run.feed.pull with
    | mk item feed =>
      rw [hnext] at hpull
      subst hpull
      cases error with
      | none => exact ⟨rfl, (List.append_nil _).symm, hfailure⟩
      | some e => exact ⟨rfl, (List.append_nil _).symm, rfl⟩
  | cons t more ih =>
    obtain ⟨n, rfl⟩ : ∃ m, n = m + 1 := Nat.exists_eq_succ_of_ne_zero (by omega)
    obtain ⟨hpull, hleft⟩ := StatementFeed.pull_of_left hfeed
    unfold upTo
    cases hnext : run.feed.pull with
    | mk item feed =>
      rw [hnext] at hpull hleft
      subst hpull
      let next : FileRun :=
        { run with feed, resolver := run.resolver.resolveTree t, trees := run.trees ++ [t] }
      have hmore : next.feed.Left (Parsed.items { trees := more, error }) := hleft
      obtain ⟨hresolver, htrees, herror⟩ := @ih next hfailure n hmore (Nat.lt_of_succ_lt_succ hn)
      exact ⟨hresolver, htrees.trans (List.append_assoc ..), herror⟩

/-- Documenting a file in turns ends after a turn for each statement and one more, and gives and
reports the same as resolving all when all has been read. -/
theorem close_upTo (config : DocConfig) (source : String) (filename : Option String) {n : Nat}
    (hn : (parseSql (withoutByteOrderMark source) filename).trees.length < n) :
    ((start config source filename).upTo n).close config filename =
      documentFile config source filename := by
  let text := withoutByteOrderMark source
  let parsed := parseSql text filename
  have hleft : (start config source filename).feed.Left parsed.items := by
    have hholds := TokenStream.holds_ofLexed (lexSql text filename)
    exact ⟨_, _, _, hholds, Nat.lt_succ_of_le hholds.remaining.ge, rfl⟩
  obtain ⟨hresolver, htrees, hfailure⟩ := upTo_of_left hleft rfl hn
  have hresolve := resolve_eq_resolveAll (parseSql_fits text filename) config.warnOrphans
  unfold close documentFile
  dsimp only at hresolve ⊢
  rw [hresolve, hresolver, hfailure, htrees]
  cases parsed.error <;> rfl

end FileRun

/-! ### Reports -/

/-- Reading and resolving a file in turns makes its document or its error. If there is a document,
it has all statements that asking for statements gives, no error comes after them, and nothing that
is reported is an error. If there is an error, it is the one that asking gives after the statements;
it is reported last and is the only error that is reported, and what is reported before it is what
resolving the statements reports, with the ends of all scopes. -/
theorem documentFile_reports (config : DocConfig) (source : String) (filename : Option String) :
    let text := withoutByteOrderMark source
    let parsed := parseSql text filename
    let resolved := (resolveAll parsed.trees config.warnOrphans).2
    let out := documentFile config source filename
    (∀ n, (StatementFeed.ofSource text filename).pullAt n =
        (parsed.trees.map .ok ++ parsed.error.toList.map .error)[n]?) ∧
      (∀ n, parsed.trees.length < n →
        ((FileRun.start config source filename).upTo n).close config filename = out) ∧
      (∀ d, out.1 = .ok d →
        parsed.error = none ∧ d.filename = filename ∧ d.trees = parsed.trees ∧ out.2 = resolved ∧
          ∀ r ∈ out.2, r.severity ≠ .error) ∧
      ∀ e, out.1 = .error e →
        parsed.error = some e.error ∧ e.format = config.format ∧
          out.2 = resolved ++ [e.toDiagnostic] ∧ e.toDiagnostic.severity = .error ∧
          ∀ r ∈ resolved, r.severity ≠ .error := by
  intro text parsed resolved out
  have hwarnings : ∀ r ∈ resolved, r.severity ≠ .error := fun r hr heq =>
    Severity.noConfusion ((severity_resolveAll parsed.trees config.warnOrphans r hr).symm.trans heq)
  have hresolved : (resolve parsed.trees config.warnOrphans).2 = resolved :=
    congrArg Prod.snd (resolve_eq_resolveAll (parseSql_fits text filename) config.warnOrphans)
  refine ⟨StatementFeed.pullAt_eq (lexSql text filename),
    fun n hn => FileRun.close_upTo config source filename hn, ?_⟩
  let document : Document :=
    { filename, trees := parsed.trees, resolution := (resolve parsed.trees config.warnOrphans).1 }
  cases herror : parsed.error with
  | none =>
    have hout : out = (.ok document, resolved) := by
      unfold out documentFile
      dsimp only
      rw [← hresolved, herror]
    rw [hout]
    refine ⟨fun d hd => ?_, fun e he => nomatch he⟩
    cases hd
    exact ⟨rfl, rfl, rfl, rfl, hwarnings⟩
  | some error =>
    let failed : FileError := { error, format := config.format }
    have hout : out = (.error failed, resolved ++ [failed.toDiagnostic]) := by
      unfold out documentFile
      dsimp only
      rw [← hresolved, herror]
    rw [hout]
    refine ⟨fun d hd => (nomatch hd), fun e he => ?_⟩
    cases he
    exact ⟨rfl, rfl, rfl, error.severity_toDiagnostic, hwarnings⟩

end SqlDoc
