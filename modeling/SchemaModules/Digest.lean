import SchemaModules.Digest.Sha256
import SchemaModules.Identifier.Error
import SchemaModules.Text.Hex

/-!
# Digests of file sets

The digest of a set of files is the hash of its manifest, which has a line for each file with the
hash and the path of it, in ascending order of the paths.
-/

namespace SchemaModules

/-- A fingerprint of a set of files: a hash of thirty-two bytes. -/
structure Digest where
  bytes : Bytes
  size : bytes.length = 32
  deriving DecidableEq

namespace Digest

/-- What a digest's text starts with: the hash function in use. -/
def scheme : List Char := "sha256:".toList

/-- The hexadecimal digits of a digest. -/
def hex (d : Digest) : String := String.ofList (Text.Hex.encode d.bytes)

/-- A digest as text. -/
def text (d : Digest) : String := String.ofList (scheme ++ Text.Hex.encode d.bytes)

/-- The hash of a file's content, as it stands in a manifest. -/
def fileHash (content : Bytes) : String :=
  String.ofList (Text.Hex.encode (Sha256.hash content))

/-- The line of a file in a manifest. -/
def manifestLine (path hash : String) : String :=
  hash ++ "  " ++ path ++ "\n"

/-- Files' paths and hashes in ascending order of the paths; entries of one path keep their order. -/
def sortByPath {α : Type} (files : List (String × α)) : List (String × α) :=
  files.mergeSort fun a b => a.1 ≤ b.1

/-- The manifest of the paths and hashes of files. -/
def manifest (hashes : List (String × String)) : String :=
  String.join ((sortByPath hashes).map fun file => manifestLine file.1 file.2)

/-- The digest of a file set whose content hashes are known. -/
def ofFileHashes (hashes : List (String × String)) : Digest where
  bytes := Sha256.hash (Text.Utf8.encode (manifest hashes))
  size := Sha256.length_hash _

/-- The digest of a file set. -/
def ofFiles (files : List (String × Bytes)) : Digest :=
  ofFileHashes (files.map fun file => (file.1, fileHash file.2))

/-- The digest that a text spells out. -/
def parse (s : String) : Except IdentifierError Digest :=
  if scheme.isPrefixOf s.toList then
    match Text.Hex.decode? (s.toList.drop scheme.length) with
    | some bytes =>
        if size : bytes.length = 32 then .ok ⟨bytes, size⟩ else .error (.digest s .notHex)
    | none => .error (.digest s .notHex)
  else .error (.digest s .unknownType)

/-- Reading the text of a digest gives it back. -/
theorem parse_text (d : Digest) : parse d.text = .ok d := by
  have drop : (scheme ++ Text.Hex.encode d.bytes).drop scheme.length = Text.Hex.encode d.bytes :=
    List.drop_left ..
  simp [parse, text, drop, Text.Hex.decode?_encode, d.size]

end Digest

end SchemaModules
