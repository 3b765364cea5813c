import Handoff.Scene.Reader
import Handoff.Session
import Handoff.Template
import Handoff.Proofs.Integration.Warnings
import Handoff.Proofs.Markup.Content
import Handoff.Proofs.Markup.Selectors
import Handoff.Proofs.Naming.Distinct
import Handoff.Proofs.Session.Transparency
import Handoff.Proofs.Stylesheet
import Handoff.Proofs.Utility.Layers
import Handoff.Proofs.Utility.Names
import Handoff.Proofs.Integration.Insertion
import Handoff.Proofs.Markup.Interaction
import Handoff.Proofs.Markup.Mirror
import Handoff.Proofs.Number.Packing
import Handoff.Proofs.Number.Places
import Handoff.Proofs.Number.Reading
import Handoff.Proofs.Json.Numeral
import Handoff.Proofs.Json.Source
import Handoff.Proofs.Json.Reader
import Handoff.Proofs.Json.Record
import Handoff.Proofs.Scene.Hex
import Handoff.Proofs.Scene.Reader
import Handoff.Proofs.Scene.RoundTrip
import Handoff.Proofs.Audit.Monotone
import Handoff.Proofs.Audit.NativeButton
import Handoff.Proofs.Markup.Hidden
import Handoff.Proofs.Stylesheet.Desktop
import Handoff.Proofs.Session.Accounting
import Handoff.Proofs.Stylesheet.Module
import Handoff.Proofs.Options.RoundTrip
import Handoff.Proofs.Options.Unknown
import Handoff.Proofs.Scene.Resolution
import Handoff.Proofs.Component.TopLevel
import Handoff.Proofs.Component.Widths
import Handoff.Proofs.Markup.Escape
import Handoff.Proofs.Classification.Interactivity
import Handoff.Proofs.Styled.Walk
import Handoff.Proofs.Style.Shown
import Handoff.Proofs.Naming.Component
import Handoff.Proofs.Utility.Snap
import Handoff.Proofs.Style.Rebuilding
import Handoff.Proofs.Viewport.Frame
import Handoff.Proofs.Markup.Layout
