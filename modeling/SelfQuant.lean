import SelfQuant.OmsLateEvent
import SelfQuant.OmsGtd
import SelfQuant.OmsAckFills
import SelfQuant.OmsRegister
import SelfQuant.OmsSchedulerRefines
import SelfQuant.MdsFeedRun
import SelfQuant.MdsSymbolSplit
import SelfQuant.MdsRingRun
import SelfQuant.MdsAggValid
import SelfQuant.MdsArbiterRun
import SelfQuant.WireRoundTrip
import SelfQuant.MdsSnapshotRoundTrip
import SelfQuant.MdsMirrorRun
import SelfQuant.MdsSlotRun
import SelfQuant.MdsBboOverlay
import SelfQuant.TraderCloseReduces
import SelfQuant.TraderAttribution
import SelfQuant.TraderOrderConsistent
import SelfQuant.TraderOrderConverge
import SelfQuant.TraderAverageCovers
import SelfQuant.TraderSizedPlan
import SelfQuant.TraderHedgeOrder
import SelfQuant.TraderTwapTotal
import SelfQuant.FrameBbo
import SelfQuant.FrameQueries
import SelfQuant.PolyMm
import SelfQuant.TradefiEngine
import SelfQuant.TradefiRecovery
import SelfQuant.Hyperliquid
import SelfQuant.PolymarketPages
import SelfQuant.IbkrDecimal
