import Diagram.Arith
import Diagram.Cli.Basic
import Diagram.Cli.Options
import Diagram.Color.Basic
import Diagram.Color.Mixing
import Diagram.Color.Text
import Diagram.Config.Basic
import Diagram.Config.Json
import Diagram.Engine.Basic
import Diagram.Engine.Display
import Diagram.Engine.Input
import Diagram.Engine.Text
import Diagram.Event.Basic
import Diagram.Event.Json
import Diagram.Event.Log
import Diagram.Frame
import Diagram.Geometry.Boundary
import Diagram.Geometry.BoundingBox
import Diagram.Geometry.Point
import Diagram.Geometry.Transform
import Diagram.Json.Basic
import Diagram.Json.Layer
import Diagram.Json.Message
import Diagram.Json.Number
import Diagram.Json.Printer
import Diagram.Json.Reader
import Diagram.Json.Standard
import Diagram.Main
import Diagram.Number.Binary
import Diagram.Number.Hypotenuse
import Diagram.Number.Numeral
import Diagram.Number.Reader
import Diagram.Number.Shortest
import Diagram.Number.Text
import Diagram.Palette
import Diagram.Payload.Basic
import Diagram.Payload.Json
import Diagram.Pointer
import Diagram.Proofs.Bounding
import Diagram.Proofs.Clipping
import Diagram.Proofs.Coloring
import Diagram.Proofs.Composing
import Diagram.Proofs.Engine.Checking
import Diagram.Proofs.Engine.Dragging
import Diagram.Proofs.Engine.Effects
import Diagram.Proofs.Engine.Fitting
import Diagram.Proofs.Engine.Grabbing
import Diagram.Proofs.Engine.Highlighting
import Diagram.Proofs.Engine.Loading
import Diagram.Proofs.Engine.Logging
import Diagram.Proofs.Engine.Mirroring
import Diagram.Proofs.Engine.Moving
import Diagram.Proofs.Engine.Noticing
import Diagram.Proofs.Engine.Picking
import Diagram.Proofs.Engine.Pointing
import Diagram.Proofs.Engine.Presenting
import Diagram.Proofs.Engine.Pressing
import Diagram.Proofs.Engine.Responding
import Diagram.Proofs.Engine.Runs
import Diagram.Proofs.Engine.Scaling
import Diagram.Proofs.Engine.Sliding
import Diagram.Proofs.Engine.Targeting
import Diagram.Proofs.Exact
import Diagram.Proofs.Failing
import Diagram.Proofs.Json.Colors
import Diagram.Proofs.Json.Configs
import Diagram.Proofs.Json.Conforming
import Diagram.Proofs.Json.Events
import Diagram.Proofs.Json.Grammar
import Diagram.Proofs.Json.Overriding
import Diagram.Proofs.Json.Payloads
import Diagram.Proofs.Json.Printing
import Diagram.Proofs.Json.Reading
import Diagram.Proofs.Json.Records
import Diagram.Proofs.Json.Standard
import Diagram.Proofs.Number.Nearest
import Diagram.Proofs.Number.Packing
import Diagram.Proofs.Number.Rounding
import Diagram.Proofs.Number.Tenths
import Diagram.Proofs.Number.Valuing
import Diagram.Proofs.Projecting
import Diagram.Proofs.Scene.Carrying
import Diagram.Proofs.Scene.Checking
import Diagram.Proofs.Scene.Finding
import Diagram.Proofs.Scene.Flagging
import Diagram.Proofs.Scene.Laying
import Diagram.Proofs.Scene.Linking
import Diagram.Proofs.Scene.Marking
import Diagram.Proofs.Scene.Numbering
import Diagram.Proofs.Scene.Reordering
import Diagram.Proofs.Scene.Replay
import Diagram.Proofs.Scene.Routing
import Diagram.Proofs.Scene.Searching
import Diagram.Proofs.Scene.Selecting
import Diagram.Proofs.Scene.Serializing
import Diagram.Proofs.Scene.Switching
import Diagram.Proofs.Turning
import Diagram.Proofs.Viewer.Asking
import Diagram.Proofs.Viewer.Following
import Diagram.Proofs.Viewer.Listing
import Diagram.Proofs.Viewer.Staging
import Diagram.Proofs.Zooming
import Diagram.Scene.Basic
import Diagram.Scene.Edit
import Diagram.Scene.Enabling
import Diagram.Scene.Node
import Diagram.Scene.Selection
import Diagram.Scene.Text
import Diagram.Slider
import Diagram.Table
import Diagram.Text.Blank
import Diagram.Text.Hidden
import Diagram.Text.Quoted
import Diagram.Viewer.Basic
import Diagram.Viewer.Panel
import Diagram.Viewer.Pixel
import Diagram.Viewer.Shape
import Diagram.Viewer.Window
import Diagram.Viewport
