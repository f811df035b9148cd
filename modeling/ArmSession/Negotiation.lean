import ArmSession.Failure
import ArmSession.Log
import ArmSession.Wire.Handshake

/-!
# Agreeing on a version

One request and one response on the service channel. Only a controller that reports success
and exactly the version of this library is accepted.
-/

namespace ArmSession

structure Negotiation (σ : Type) where
  result : Except Failure UInt16
  link : σ
  log : List Log.Line

variable {σ : Type} [Link σ]

def ConnectResponse.agrees (r : ConnectResponse) : Except Failure UInt16 :=
  if r.status = .success ∧ r.version = protocolVersion then .ok r.version
  else .error (.incompatibleVersion protocolVersion r.version)

def negotiate (timeout : Duration) (link : σ) : Negotiation σ :=
  let request : ConnectRequest := ⟨protocolVersion, Link.realtimePort link⟩
  let asking : Log.Line := ⟨.debug,
    s!"Sending connect request (version {request.version}, realtime port {request.realtimePort})"⟩
  match Link.send .service request.encode link with
  | (.error e, link) => ⟨.error (.link e), link, [asking]⟩
  | (.ok (), link) =>
    match Link.receive .service timeout link with
    | (.error e, link) => ⟨.error (.link e), link, [asking]⟩
    | (.ok reply, link) =>
      match ConnectResponse.decode reply with
      | .error e => ⟨.error (.message e), link, [asking]⟩
      | .ok response =>
        match response.agrees with
        | .error e => ⟨.error e, link, [asking]⟩
        | .ok version =>
          ⟨.ok version, link,
            [asking, ⟨.info, s!"Handshake complete, server version {version}"⟩]⟩

end ArmSession
