import Qlabs.Machine
import Qlabs.Relay
import Qlabs.Bytes
import Qlabs.Path
import Qlabs.Http.Request
import Qlabs.Http.Static
import Qlabs.Http.State
import Qlabs.Http.Step
import Qlabs.Http.Life
import Qlabs.Http.Refinement
import Qlabs.Http.Frame
import Qlabs.Http.Lifetime
import Qlabs.Http.Ownership
import Qlabs.Http.Replies
import Qlabs.Http.Single
import Qlabs.Http.Agents
import Qlabs.Http.Refusal
import Qlabs.Http.HostCheck
import Qlabs.Mojo.MathService
import Qlabs.Http.Message
import Qlabs.Http.MimeType
import Qlabs.Http.Upgrade
import Qlabs.Http.FailedStart
import Qlabs.Basic.RunLoop
import Qlabs.Weblayer.Echo
import Qlabs.Http.Drain
import Qlabs.Http.Announce
import Qlabs.Http.Main
import Qlabs.Bindings.Wire
import Qlabs.Bindings.Types
import Qlabs.Bindings.Control
import Qlabs.Bindings.Puts
import Qlabs.Bindings.Codec
import Qlabs.Bindings.RoundTrip
import Qlabs.Bindings.BoolArray
import Qlabs.Bindings.Remote
import Qlabs.Bindings.Interface
import Qlabs.Bindings.Calls
import Qlabs.Bindings.Echo
