import VersionMatch.Main
import VersionMatch.Proofs.Windows
import VersionMatch.Proofs.Growth
import VersionMatch.Proofs.Inclusion
import VersionMatch.Proofs.Canonical
import VersionMatch.Proofs.Respelling
import VersionMatch.Proofs.Leftmost
import VersionMatch.Proofs.Displacement
import VersionMatch.Proofs.Placement
import VersionMatch.Proofs.Recording
import VersionMatch.Proofs.Statuses
import VersionMatch.Proofs.Validation
import VersionMatch.Proofs.Escapes
import VersionMatch.Proofs.Storing
import VersionMatch.Proofs.Commands
