import Diaporama.Main
import Diaporama.Proofs.CommandLine.Agreement
import Diaporama.Proofs.CommandLine.Listing
import Diaporama.Proofs.Digest.Framing
import Diaporama.Proofs.Document.Overlay
import Diaporama.Proofs.Document.Rereading
import Diaporama.Proofs.Double.Written
import Diaporama.Proofs.Graph.Admission
import Diaporama.Proofs.Graph.Congruence
import Diaporama.Proofs.Graph.Ending
import Diaporama.Proofs.Graph.Expression
import Diaporama.Proofs.Graph.Reordering
import Diaporama.Proofs.Graph.Splitting
import Diaporama.Proofs.Rendering.Course
import Diaporama.Proofs.Shell.Splitting
import Diaporama.Proofs.Slideshow.Arguments
import Diaporama.Proofs.Slideshow.Building
import Diaporama.Proofs.Slideshow.Equality
import Diaporama.Proofs.Slideshow.Finite
import Diaporama.Proofs.Slideshow.Independence
import Diaporama.Proofs.Slideshow.Lengths
import Diaporama.Proofs.Slideshow.Log
import Diaporama.Proofs.Slideshow.Numbering
import Diaporama.Proofs.Slideshow.Orders
import Diaporama.Proofs.Slideshow.Playback
import Diaporama.Proofs.Slideshow.Restyling
import Diaporama.Proofs.Slideshow.Shape
import Diaporama.Proofs.Slideshow.Soundtrack
import Diaporama.Proofs.Slideshow.Unfolding
import Diaporama.Proofs.Slideshow.Upscaling
import Diaporama.Rehearsal.Machine
