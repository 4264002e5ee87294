import GrantCatalog.Main
import GrantCatalog.Proofs.Check
import GrantCatalog.Proofs.Drafts
import GrantCatalog.Proofs.Flags
import GrantCatalog.Proofs.Listing
import GrantCatalog.Proofs.Report
import GrantCatalog.Proofs.Session
import GrantCatalog.Source.Address
import GrantCatalog.Proofs.Layout
import GrantCatalog.Proofs.Trace
import GrantCatalog.Proofs.Access
import GrantCatalog.Proofs.Plan
import GrantCatalog.Proofs.Rectangular
import GrantCatalog.Proofs.Grantee
import GrantCatalog.Proofs.UserList
import GrantCatalog.Proofs.Target
import GrantCatalog.Proofs.Address
import GrantCatalog.Proofs.Permitted
import GrantCatalog.Proofs.Stages
import GrantCatalog.Proofs.Question
import GrantCatalog.Proofs.Cell
