import SelfQuant.TraderTwapBudget

namespace SelfQuant.Trader

open List TwapPlan

namespace TwapState

section Steps

variable {plan : TwapPlan} {world : TwapWorld} {s : TwapState} {job : TwapJob} {child : TwapChild} {stage : TwapStage}
  {event : TwapEvent}

section

variable (h : s.Budget plan)

include h

theorem Budget.progressed {answer : Answer}
    (hfnd : (s.progressed plan answer).Funded plan stage) :
    ((s.progressed plan answer).moveTo stage).Budget plan :=
  h.congr progressed_children progressed_status progressed_key progressed_activeOrderID hfnd

end

end Steps

end TwapState

end SelfQuant.Trader
