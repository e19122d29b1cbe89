import SchemaDiagram.Text.Blank
import SchemaDiagram.Text.LetterCase
import SchemaDiagram.Ddl.Nesting

/-! # ColumnType — where a column's type starts and where it ends

      * `typeNames`, `isTypeName`      — the words that a type may start with
      * `constraintWords`              — the words that end a type
      * `typePart`, `declaredType`     — the type at the front of a column's text -/

namespace SchemaDiagram.Ddl

open Text (isBlank trim firstWord upper equalsIgnoringCase)

/-- The words that a column type may start with: MySQL's own names and the
    spellings that are common elsewhere. -/
def typeNames : List Text :=
  (["BIT", "BOOL", "BOOLEAN", "TINYINT", "SMALLINT", "MEDIUMINT", "MIDDLEINT", "INT", "INTEGER",
    "BIGINT", "INT1", "INT2", "INT3", "INT4", "INT8", "SERIAL", "BIGSERIAL", "SMALLSERIAL",
    "DECIMAL", "DEC", "NUMERIC", "FIXED", "FLOAT", "FLOAT4", "FLOAT8", "DOUBLE", "REAL", "MONEY",
    "DATE", "DATETIME", "TIMESTAMP", "TIMESTAMPTZ", "TIME", "YEAR", "INTERVAL", "CHAR",
    "CHARACTER", "VARCHAR", "VARCHAR2", "NCHAR", "NVARCHAR", "NATIONAL", "BINARY", "VARBINARY",
    "TINYBLOB", "BLOB", "MEDIUMBLOB", "LONGBLOB", "TINYTEXT", "TEXT", "MEDIUMTEXT", "LONGTEXT",
    "LONG", "CLOB", "BYTEA", "ENUM", "SET", "JSON", "JSONB", "UUID", "INET4", "INET6", "VECTOR",
    "GEOMETRY", "POINT", "LINESTRING", "POLYGON", "MULTIPOINT", "MULTILINESTRING",
    "MULTIPOLYGON", "GEOMETRYCOLLECTION", "GEOMCOLLECTION", "GEOGRAPHY"]
    : List String).map String.toList

/-- Whether `word` can begin a column type, in any letter case. -/
def isTypeName (word : Text) : Bool := typeNames.any (equalsIgnoringCase word)

/-- The words that end a column's type and start its constraints. -/
def constraintWords : List Text :=
  (["NOT", "NULL", "DEFAULT", "AUTO_INCREMENT", "PRIMARY", "UNIQUE", "COMMENT", "REFERENCES",
    "COLLATE", "CHARACTER", "CHECK", "CONSTRAINT", "ON", "GENERATED", "AS", "VIRTUAL", "STORED"]
    : List String).map String.toList

/-- Whether the first word behind the blanks of `s` is a constraint word, in
    any letter case. -/
def startsConstraint (s : Text) : Bool := constraintWords.contains (upper (firstWord s))

/-- The text up to the first blank that stands outside quotes and
    parentheses and has a constraint word behind it, for a scan that enters
    the text in the state `n`. -/
def typePart (n : Nesting) : Text → Text
  | [] => []
  | c :: r =>
    if n.atTop && isBlank c && startsConstraint (c :: r) then []
    else c :: typePart (n.step c) r

/-- The type of a column, from the text behind its name.  Quoted and
    parenthesised parts are never divided; a column without any text has the
    type UNKNOWN. -/
def declaredType (text : Text) : Text :=
  if trim text = [] then "UNKNOWN" else trim (typePart .start (trim text))

end SchemaDiagram.Ddl
