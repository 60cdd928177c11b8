/-
# Words with a meaning of their own

Three lists of words. A reserved word never names anything. A keyword has a meaning in some places
and may name things in others. A pseudo-keyword is a name like any other that the grammar knows in
some places. Letters `a` to `z` are looked up as capitals; no other letter changes.

Key definitions: `WordClass`, `classify`.
-/

namespace SqlDoc

/-- What kind of word a word is. -/
inductive WordClass where
  | reserved
  | keyword
  | pseudo
  deriving DecidableEq, Repr

/-- The words that never name anything. -/
def reservedWords : List String := [
  "ALL", "ALTER", "AND", "ANY", "AS", "ASC", "AT", "BEGIN", "BETWEEN", "BY", "CASE", "CHECK",
  "CLUSTER", "CLUSTERS", "COLAUTH", "COLUMNS", "COMPRESS", "CONNECT", "CRASH", "CREATE", "CURSOR",
  "DECLARE", "DEFAULT", "DESC", "DISTINCT", "DROP", "ELSE", "END", "EXCEPTION", "EXCLUSIVE",
  "FETCH", "FOR", "FROM", "FUNCTION", "GOTO", "GRANT", "GROUP", "HAVING", "IDENTIFIED", "IF",
  "IN", "INDEX", "INDEXES", "INSERT", "INTERSECT", "INTO", "IS", "LIKE", "LOCK", "MINUS", "MODE",
  "NOCOMPRESS", "NOT", "NOWAIT", "NULL", "OF", "ON", "OPTION", "OR", "ORDER", "OVERLAPS",
  "PROCEDURE", "PUBLIC", "RESOURCE", "REVOKE", "SELECT", "SHARE", "SIZE", "SQL", "START",
  "SUBTYPE", "TABAUTH", "TABLE", "THEN", "TO", "TYPE", "UNION", "UNIQUE", "UPDATE", "VALUES",
  "VIEW", "VIEWS", "WHEN", "WHERE", "WITH"]

/-- The words that have a meaning in some places and may name things in others. -/
def keywords : List String := [
  "A", "ACCESSIBLE", "ADD", "AGENT", "AGGREGATE", "ARRAY", "ATTRIBUTE", "AUTHID", "AVG",
  "BFILE_BASE", "BINARY", "BLOB_BASE", "BLOCK", "BODY", "BOTH", "BOUND", "BULK", "BYTE", "C",
  "CALL", "CALLING", "CASCADE", "CHAR", "CHAR_BASE", "CHARACTER", "CHARSET", "CHARSETFORM",
  "CHARSETID", "CLOB_BASE", "CLOSE", "COLLECT", "COMMENT", "COMMIT", "COMMITTED", "COMPILED",
  "CONSTANT", "CONSTRUCTOR", "CONTEXT", "CONTINUE", "CONVERT", "COUNT", "CURRENT", "CUSTOMDATUM",
  "DANGLING", "DATA", "DATE", "DATE_BASE", "DAY", "DEFINE", "DELETE", "DETERMINISTIC", "DOUBLE",
  "DURATION", "EDITIONABLE", "EDITIONING", "ELEMENT", "ELSIF", "EMPTY", "ESCAPE", "EXCEPT",
  "EXCEPTIONS", "EXECUTE", "EXISTS", "EXIT", "EXTERNAL", "FINAL", "FIXED", "FLOAT", "FORALL",
  "FORCE", "GENERAL", "HASH", "HEAP", "HIDDEN", "HOUR", "IMMEDIATE", "INCLUDING", "INDICATOR",
  "INDICES", "INFINITE", "INSTANTIABLE", "INT", "INTERFACE", "INTERVAL", "INVALIDATE",
  "ISOLATION", "JAVA", "LANGUAGE", "LARGE", "LEADING", "LENGTH", "LEVEL", "LIBRARY", "LIKE2",
  "LIKE4", "LIKEC", "LIMIT", "LIMITED", "LOCAL", "LONG", "LOOP", "MAP", "MAX", "MAXLEN", "MEMBER",
  "MERGE", "MIN", "MINUTE", "MOD", "MODIFY", "MONTH", "MULTISET", "NAME", "NAN", "NATIONAL",
  "NATIVE", "NCHAR", "NEW", "NOCOPY", "NONEDITIONABLE", "NUMBER_BASE", "OBJECT", "OLD", "ONLY",
  "OPAQUE", "OPEN", "OPERATOR", "ORACLE", "ORADATA", "ORGANIZATION", "OTHERS", "OUT",
  "OVERRIDING", "PACKAGE", "PARALLEL_ENABLE", "PARAMETER", "PARAMETERS", "PARTITION", "PASCAL",
  "PERSISTABLE", "PIPE", "PIPELINED", "PRAGMA", "PRECISION", "PRIOR", "PRIVATE", "RAISE", "RANGE",
  "RAW", "READ", "RECORD", "REF", "REFERENCE", "RELIES_ON", "REM", "REMAINDER", "RENAME",
  "RESULT", "RESULT_CACHE", "RETURN", "RETURNING", "REVERSE", "ROLLBACK", "ROW", "SAMPLE", "SAVE",
  "SAVEPOINT", "SECOND", "SEGMENT", "SELF", "SEPARATE", "SEQUENCE", "SERIALIZABLE", "SET",
  "SHARING", "SHORT", "SIZE_T", "SOME", "SPARSE", "SQLCODE", "SQLDATA", "SQLNAME", "SQLSTATE",
  "STANDARD", "STATIC", "STDDEV", "STORED", "STRING", "STRUCT", "STYLE", "SUBMULTISET",
  "SUBPARTITION", "SUBSTITUTABLE", "SUM", "SYNONYM", "TDO", "THE", "TIME", "TIMESTAMP",
  "TIMEZONE_ABBR", "TIMEZONE_HOUR", "TIMEZONE_MINUTE", "TIMEZONE_REGION", "TRAILING",
  "TRANSACTION", "TRANSACTIONAL", "TRUSTED", "UNDER", "UNSIGNED", "UNTRUSTED", "USE", "USING",
  "VALIST", "VALUE", "VARIABLE", "VARIANCE", "VARRAY", "VARYING", "VOID", "WHILE", "WORK",
  "WRAPPED", "WRITE", "YEAR", "ZONE"]

/-- The names that the grammar knows in some places. -/
def pseudoKeywords : List String := [
  "AUTONOMOUS_TRANSACTION", "COVERAGE", "CURRENT_USER", "DEFINER", "DEPRECATE", "EXCEPTION_INIT",
  "FALSE", "INLINE", "METADATA", "NONE", "REPLACE", "RESTRICT_REFERENCES", "SERIALLY_REUSABLE",
  "SUPPRESSES_WARNING_6009", "TRUE", "UDF"]

/-- A letter of `a` to `z` as a capital. -/
def asciiUpper (word : String) : String :=
  String.ofList (word.toList.map Char.toUpper)

/-- The class of a word, if it is in one of the lists. -/
def classify (word : String) : Option WordClass :=
  let word := asciiUpper word
  if reservedWords.contains word then some .reserved
  else if keywords.contains word then some .keyword
  else if pseudoKeywords.contains word then some .pseudo
  else none

/-- The word never names anything. -/
def isReserved (word : String) : Bool :=
  classify word == some .reserved

end SqlDoc
