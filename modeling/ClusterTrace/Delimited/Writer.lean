/-!
# Writing delimited records

Records with commas between their fields and a line feed at their end. A field with a comma, a
double quote or a line end in it is written between double quotes, with its own quotes doubled.
-/

namespace ClusterTrace.Delimited

/-- The field cannot be written as it is. -/
def needsQuotes (field : List Char) : Bool :=
  field.any fun c => c = ',' || c = '"' || c = '\r' || c = '\n'

def doubleQuotes (field : List Char) : List Char :=
  field.flatMap fun c => if c = '"' then ['"', '"'] else [c]

def writeField (field : String) : String :=
  if needsQuotes field.toList then
    String.ofList ('"' :: doubleQuotes field.toList ++ ['"'])
  else field

def writeRecord (fields : List String) : String := ",".intercalate (fields.map writeField) ++ "\n"

def writeRecords (records : List (List String)) : String := String.join (records.map writeRecord)

end ClusterTrace.Delimited
