import WiotaAp.App.CustomData
import WiotaAp.At.FreqText
import WiotaAp.AtSimplified.FreqState
import WiotaAp.AtSimplified.Payload
import WiotaAp.Codec.CJsonPrint
import WiotaAp.Codec.CJsonSafety
import WiotaAp.Manager.Binding
import WiotaAp.Manager.Downloader
import WiotaAp.Manager.FastlzCodec
import WiotaAp.Manager.Forward
import WiotaAp.Manager.OtaState
import WiotaAp.Manager.OtaStream
import WiotaAp.Manager.ResendChain
import WiotaAp.Manager.ResendDrain
import WiotaAp.Manager.Respons
import WiotaAp.Manager.RetryLoss
import WiotaAp.Manager.RetryQueue
import WiotaAp.Manager.ScratchSpace
import WiotaAp.Manager.Splice
import WiotaAp.Manager.UserId
import WiotaAp.Manager.WiotaFreq
import WiotaAp.NetPassthrough.MqttPayload
import WiotaAp.NetPassthrough.PropertyReport
import WiotaAp.Platform.LinkedList
import WiotaAp.Platform.ManagerQueue
import WiotaAp.Platform.SlaveErase
import WiotaAp.Platform.SlaveFlash
import WiotaAp.Platform.SlaveMemory
import WiotaAp.SpiCom.DlBounds
import WiotaAp.SpiCom.DlRecovery
import WiotaAp.SpiCom.Fifo
import WiotaAp.SpiCom.Handlers
import WiotaAp.SpiCom.Report
