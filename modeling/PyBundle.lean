import PyBundle.Command.Run
import PyBundle.Json.Reader
import PyBundle.Shell.Host
import PyBundle.Syntax.Python
import PyBundle.Command.Reach
import PyBundle.Main
import PyBundle.Proofs.Bundle.Exact
import PyBundle.Proofs.Bundle.Excluded
import PyBundle.Proofs.Bundle.Manifest
import PyBundle.Proofs.Bundle.Nested
import PyBundle.Proofs.Bundle.Ordering
import PyBundle.Proofs.Bundle.Reported
import PyBundle.Proofs.Bundle.Rerun
import PyBundle.Proofs.Bundle.Resolution
import PyBundle.Proofs.Bundle.Roots
import PyBundle.Proofs.Bundle.Stages
import PyBundle.Proofs.Collect.Buckets
import PyBundle.Proofs.Collect.Causes
import PyBundle.Proofs.Collect.Containment
import PyBundle.Proofs.Collect.Destination
import PyBundle.Proofs.Collect.Local
import PyBundle.Proofs.Collect.Pinned
import PyBundle.Proofs.Collect.Termination
import PyBundle.Proofs.Distribution.Index
import PyBundle.Proofs.Distribution.Listing
import PyBundle.Proofs.Distribution.Name
import PyBundle.Proofs.Import.Relative
import PyBundle.Proofs.Module.Precedence
import PyBundle.Proofs.Module.Relative
import PyBundle.Proofs.Path.NormalForm
import PyBundle.Proofs.Report.Codec
import PyBundle.Proofs.Syntax.Alike
import PyBundle.Proofs.Syntax.Listing
import PyBundle.Proofs.Syntax.Preorder
