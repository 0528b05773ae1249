import H2Sim.Basic
import H2Sim.Flush
import H2Sim.SendV2
import H2Sim.SendV11
import H2Sim.SendOrder
import H2Sim.Bytes
import H2Sim.RecvV11
import H2Sim.RecvBuf
import H2Sim.RecvScan
import H2Sim.Request
import H2Sim.RequestLine
import H2Sim.ServerOnce
import H2Sim.ServerRun
import H2Sim.ClientTail
import H2Sim.Loop
import H2Sim.Session
import H2Sim.SendTerm
import H2Sim.Peer
import H2Sim.DList
import H2Sim.Ctx
import H2Sim.Tick
import H2Sim.CtxInv
import H2Sim.PeerRefine
import H2Sim.PollRun
import H2Sim.CtxFree
import H2Sim.ServerSess
import H2Sim.ClientSess
import H2Sim.SendDrain
import H2Sim.Settings
import H2Sim.PeerLife
import H2Sim.Failures
import H2Sim.FreeTags
import H2Sim.FillSpec
import H2Sim.RoundTags
import H2Sim.RoundStep
