import ImageDerivative.Text.Utf8

/-! XMP packets: the RDF element inside them, without the wrapper around it. -/
namespace ImageDerivative.Xmp

def rdfOpen : List Char := "<rdf:RDF".toList

def rdfClose : List Char := "</rdf:RDF>".toList

/-- The text up to the first occurrence of `word`, and the text from it on. -/
def splitAtFirst? (word : List Char) : (before text : List Char) → Option (List Char × List Char)
  | before, text =>
    if word.isPrefixOf text then some (before.reverse, text)
    else match text with
      | [] => none
      | c :: text => splitAtFirst? word (c :: before) text

/-- From the first opening tag to the first closing tag after it. -/
def extractRdf (packet : List Char) : Option (List Char) := do
  let (_, element) ← splitAtFirst? rdfOpen [] packet
  let (body, _) ← splitAtFirst? rdfClose [] element
  return body ++ rdfClose

/-- The RDF element of a packet in bytes, which are read lossily. -/
def rdfOfBytes (bytes : Bytes) : Option String :=
  (extractRdf (Utf8.decodeLossy bytes).toList).map String.ofList

end ImageDerivative.Xmp
