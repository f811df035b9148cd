import ArmSession.Net.Host
import ArmSession.Session

/-!
# Sessions over the network

A session whose links are opened by a network connector with the options of the session's own
configuration.
-/

namespace ArmSession

abbrev NetworkSession := Session Net.NetworkConnector Net.NetworkLink

namespace NetworkSession

def connectWith (host : Net.Host) (address : String) (config : Config) (scheduler : Scheduler) :
    Connecting Net.NetworkConnector Net.NetworkLink :=
  Session.connect ⟨config.connectOptions, host, []⟩ address config scheduler

/-- A session with the standard configuration, but for the policy. -/
def connect (host : Net.Host) (address : String) (policy : Policy) (scheduler : Scheduler) :
    Connecting Net.NetworkConnector Net.NetworkLink :=
  connectWith host address (Config.standard.withRealtime policy) scheduler

end NetworkSession

end ArmSession
