namespace Retest.ClassFile

def binaryName (s : List Char) : String :=
  String.ofList (s.map fun c => if c = '/' then '.' else c)

/-- The stretches between an `L` and the next `;`. The accumulator holds the open stretch in
reverse; a stretch that never closes is dropped. -/
def stretches : Option (List Char) → List Char → List (List Char)
  | none, [] => []
  | none, c :: rest => if c = 'L' then stretches (some []) rest else stretches none rest
  | some _, [] => []
  | some open_, c :: rest =>
    if c = ';' then open_.reverse :: stretches none rest else stretches (some (c :: open_)) rest

def descriptorClasses (descriptor : List Char) : List String :=
  (stretches none descriptor).map binaryName

end Retest.ClassFile
