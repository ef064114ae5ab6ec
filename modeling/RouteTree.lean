import RouteTree.Catalogue
import RouteTree.Expression
import RouteTree.Query.Probe
import RouteTree.Session
import RouteTree.Proofs.Hierarchy.Appending
import RouteTree.Proofs.Link.Canonical
import RouteTree.Proofs.Link.Mounting
import RouteTree.Proofs.Link.Retracing
import RouteTree.Proofs.Pattern.Grammar
import RouteTree.Proofs.Pattern.Recognition
import RouteTree.Proofs.Pattern.Offence
import RouteTree.Proofs.Selection.Extension
import RouteTree.Proofs.Selection.Extraction
import RouteTree.Proofs.Selection.Aborting
import RouteTree.Proofs.Link.Shape
import RouteTree.Proofs.Selection.Grouped
import RouteTree.Proofs.Link.Failure
import RouteTree.Proofs.Query.Undeclared
import RouteTree.Proofs.Selection.Dispatching
import RouteTree.Proofs.Selection.Undeclared
import RouteTree.Proofs.Pattern.Joining
import RouteTree.Proofs.Selection.Flattening
import RouteTree.Proofs.Query.Multimap
import RouteTree.Proofs.Address.Spelling
import RouteTree.Proofs.Link.Undecoded
import RouteTree.Proofs.Selection.LeadingSlash
import RouteTree.Proofs.Address.QueryText
import RouteTree.Proofs.Link.Blank
import RouteTree.Proofs.Session
