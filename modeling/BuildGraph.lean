import BuildGraph.Main
import BuildGraph.Proofs.Engine.Grammar
import BuildGraph.Proofs.Engine.History
import BuildGraph.Proofs.Engine.Homonyms
import BuildGraph.Proofs.Manifest.Outline
import BuildGraph.Proofs.Manifest.Shape
import BuildGraph.Proofs.Verdict.Project
import BuildGraph.Proofs.View.Tree
import BuildGraph.Proofs.Cycle
import BuildGraph.Proofs.Cycle.Detector
import BuildGraph.Proofs.Cycle.Ring
import BuildGraph.Proofs.View.Cycle
import BuildGraph.Proofs.View.Depth
import BuildGraph.Proofs.View.Rebuilt
import BuildGraph.Proofs.View.Dot
import BuildGraph.Proofs.Store.Renumbered
import BuildGraph.Proofs.Verdict.Alike
import BuildGraph.Proofs.Draft.Mirror
import BuildGraph.Proofs.Draft.Frame
import BuildGraph.Proofs.Draft.Swap
import BuildGraph.Proofs.Engine.Independence
import BuildGraph.Proofs.Store.Arranged
import BuildGraph.Proofs.Verdict.Arranged
import BuildGraph.Proofs.Draft.Growth
import BuildGraph.Proofs.Engine.Growth
import BuildGraph.Proofs.Engine.Blocks
import BuildGraph.Proofs.Command.Printing
import BuildGraph.Proofs.Command.Views
import BuildGraph.Proofs.Command.Listing
import BuildGraph.Proofs.Manifest.Blocks
import BuildGraph.Proofs.Command.Lines
import BuildGraph.Proofs.Store.InPlace
