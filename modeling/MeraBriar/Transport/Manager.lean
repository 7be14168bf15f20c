import MeraBriar.Crypto.Basic

/-!
# Transports and the transport manager

`transport/mod.rs`. Four transports share one interface. Each is created
`Disabled`; only the cloud transport's `start` makes it `Active`, the LAN,
Bluetooth and Tor transports go back to `Disabled` on `start` and refuse every
`send`. `TransportManager` holds the four in priority order behind `Arc`s, so no
method can change their state after `new`.
-/

set_option autoImplicit false

namespace MeraBriar

/-- `TransportState`. -/
inductive TransportState where
  | active
  | enabling
  | disabled
  | unavailable
  deriving DecidableEq

/-- The four implementations of the `Transport` trait. -/
inductive TransportKind where
  | cloud
  | lan
  | bluetooth
  | tor
  deriving DecidableEq

/-- `Transport::id`, from the `TransportId` constants. -/
def TransportKind.id : TransportKind → String
  | .cloud => "org.merabriar.cloud"
  | .lan => "org.merabriar.lan"
  | .bluetooth => "org.merabriar.bluetooth"
  | .tor => "org.merabriar.tor"

/-- A transport object and its `state` field. -/
structure Transport where
  kind : TransportKind
  state : TransportState
  deriving DecidableEq

namespace Transport

/-- `CloudTransport::new()` and its three siblings: all start `Disabled`. -/
def new (kind : TransportKind) : Transport :=
  ⟨kind, .disabled⟩

/-- `is_available`: the state is `Active`. -/
def isAvailable (transport : Transport) : Bool :=
  transport.state = .active

/-- `send` of a transport whose connection is not written yet. -/
def pendingSend (name : String) : Except String Unit :=
  .error (name ++ " transport not yet implemented")

/-- `send`: the cloud transport hands the message to the Flutter side. -/
def send (transport : Transport) (_recipientId : String) (_data : Bytes) : Except String Unit :=
  match transport.kind with
  | .cloud => .ok ()
  | .lan => pendingSend "LAN"
  | .bluetooth => pendingSend "Bluetooth"
  | .tor => pendingSend "Tor"

/-- `start`: only the cloud transport becomes `Active`. -/
def start (transport : Transport) : Except String Unit × Transport :=
  match transport.kind with
  | .cloud => (.ok (), { transport with state := .active })
  | _ => (.ok (), { transport with state := .disabled })

/-- `stop`. -/
def stop (transport : Transport) : Except String Unit × Transport :=
  (.ok (), { transport with state := .disabled })

end Transport

inductive TransportCall where
  | start
  | stop
  deriving DecidableEq

def TransportCall.apply : TransportCall → Transport → Transport
  | .start, transport => transport.start.2
  | .stop, transport => transport.stop.2

def TransportCall.run : Transport → List TransportCall → Transport
  | transport, [] => transport
  | transport, call :: rest => run (call.apply transport) rest

@[simp]
theorem kind_apply (call : TransportCall) (transport : Transport) :
    (call.apply transport).kind = transport.kind := by
  cases call <;> cases transport with
  | mk kind state => cases kind <;> rfl

@[simp]
theorem isAvailable_apply (call : TransportCall) (transport : Transport) :
    (call.apply transport).isAvailable = decide (call = .start ∧ transport.kind = .cloud) := by
  cases call <;> cases transport with
  | mk kind state => cases kind <;> rfl

/-- `TransportManager`. -/
structure TransportManager where
  transports : List Transport

namespace TransportManager

/-- `TransportManager::new`: the four transports in priority order. -/
def new : TransportManager :=
  ⟨[.new .cloud, .new .lan, .new .bluetooth, .new .tor]⟩

/-- `get_best_transport`: the first available one. -/
def getBestTransport (manager : TransportManager) : Option Transport :=
  manager.transports.find? Transport.isAvailable

/-- `get_available_transports`. -/
def getAvailableTransports (manager : TransportManager) : List Transport :=
  manager.transports.filter Transport.isAvailable

end TransportManager

/-- After any `start`/`stop` calls a transport is available exactly when the last
call was `start` and it is the cloud transport: the LAN, Bluetooth and Tor
transports are never available once called. -/
theorem isAvailable_run (transport : Transport) (calls : List TransportCall) :
    (TransportCall.run transport calls).isAvailable =
      match calls.getLast? with
      | none => transport.isAvailable
      | some last => decide (last = .start ∧ transport.kind = .cloud) := by
  induction calls generalizing transport with
  | nil => rfl
  | cons call rest inductionHypothesis =>
      rw [TransportCall.run, inductionHypothesis, List.getLast?_cons]
      cases rest.getLast? <;> simp

end MeraBriar
