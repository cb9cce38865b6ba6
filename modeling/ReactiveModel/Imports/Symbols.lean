import ReactiveModel.Imports.Packing
import ReactiveModel.Imports.Standard

/-! What packages of the Go standard library declare, on any platform. -/

namespace ReactiveModel.Imports

/-- The packages, those of later versions behind the others. -/
def packages : List String :=
  standardPaths.filter (fun p => p != "runtime/race" && p != "time/tzdata") ++
    namesFrom [] [] "crypto/(fips140 hkdf hpke mlkem[/mlkemtest]pbkdf2 sha3)math/rand/v2 syscall/js
testing/(cryptotest synctest)weak".toList

/-- The packed lists of the names that they declare. Spelled out, these 11340 names would fill
nearly 150000 letters. -/
def packedNames : String := "
FBiob2e6&sID+Kvo1A$Xg^RalIwP$F]>c!nFTz];.5*f]MysC+8t)U:D*mNrxcJ<572VU,r^K,!4?OA(<0213!=IvS;xJ[_K970F
J2Hq8,%.aPgRpZF)?6o;Ze)T%a]y2[M!zq>&yOEX)X/jgrg.^ZZTfOc(;%7NuT,NELxz+g7S/nx<%xiWmB*i^mnLXBoCsu_o BY]
p46&8_y)j[gAr1qy5vA;KCF)3VN7.;tgzANXB1rE8O1h+/]yZI4b=lL2]]!n,I7HkW5oc)</n)S 3Nr:eIu)7HHMUS=/vNK)%bBH
9viMQskx5zuNcu=Lcd^+~=BKF,3L+2vILV4X!wW?H>l2i^(m/e8(5HECi/u2/prV[+<bBOlytSdHtjOiQY|%comz]eU2x+$Iw|p4
^2h3:M B$uqm+htfkT~FK!$M*!8_UZ7pkuXVa;n+|ry<J;)[b.jS&5KpXpS?rbdOB>^oKH<>yhWLE8x[A>2Zc&H!c/r~wpy;AGLC
>APF)rCCcnA]%iOI*r0pcrtNE~(OtLC3Y>8dS4I:^GsB!tKS:b177Z&WifHeW]ATdW^fi*^tF[*lgKvuUqQNl$Hl]gJ:eL<=c<^9
4K0ARaSinkb XdJFm?.+:)T3w,y 1GvDaMZjSv|zk8Atp$ Gw;3.fe)Efl6xa$CU[XJB([IUxpe8Iw_;UautXSuys>u,+NV][PGO
<YYKYm_(|mh7Ij<z^?y1ZqH6 1kz*(2O;Xu,^q]%XLk/W5=l?Z^ X;(s(J._P)Bt?|e 4T%n0Op0$0xZGZ=<QqowETn% 2bGJ>NZ
5vZ8~:lu=I^4^43a_2bc HH9jnDmxZ!gFIBa 1JZ.UV2 E7g+sWB.[PCFp;J,Ws!_c^F~JYp8]toRc3:yv+kD,XgeGKhV[x_n|cu
to6dkSMf.J(530]/A3NjkbM^q<=YTF BOV_O1iOhguqLc<6/t:LoRm4I+Qj/(9^K7e6AQ6H/(gR;R98vJ&ZAMS&6e4O_u:~h/js2
|b|ypdjasmcmfZ,,j3;r7%JuSUT(f?h:c1inLU.E.e.C|fDiln1M4kg68i99HH)a.Ix&cGH8q)+n(qS^]5 MDR.(KvIpJ(H2Xf^j
[jY A7f*SSo%g9r96/k84L63cPN.+rx6DIcSq1,A[G6%|0ywKCkdJniBmzGNT=:sKP=kM_31:o0q7(! 3FRVt./~h&&[D&wL|.
= )?XN2$n|T]YEks^Xmce~b)3/lKpBwB.yl.OkO$3oCp0vF8B7aFflAGXEDmy;%:74Y8nz^PkG T,S6e5o!BETGl/Qk6T]:Oo=.i
=gqbS.+l| Kb:DCP_T?3aHL^tWDGGRze|g4[&8p1%C1 9K3iepx|Xqqgi(g>Y6U7iX2hviTa?(%Q2W(yybvj zIK>&kv~ZygRJ+p
G>Y~.u!+:2< 3%QT~sa Io?Y)KJ+K v|~m^ia=|PvYu6 XV_SU7 5UN^xS^]KRq/>&RS4dZH$oEsZlgRyBVbGvFrpK*kqV30fYVo
WVJu(8wYwv)B?B$?75)3XGgoepGD?)L!AGQns2u0[=OQXY=)z3D%uZAqbL!3HN~[Z2k=Up8Jr] 1:O7A6 1Tui%<YtER]>I Iv7e
J]v(6iaqbhQ AzfsT6:M=%HDDVE8et7C4nCvhv>=j!n%+QOC,(tO(gaI^:Rqmt9eF0cr2 F,J.Eik;_*x5W==?zFYsG6Mav2;Ja3
rnpaNrRr[IzJSv2:vH[3:ZWn1HO$C.yL/amn;4Vfi~ra3Q%?gbdu2.7uM4V_g!<:>yA%)~Pi1~fs=.DEwM;0m[.XU+9/g+SG9vL5
:vLWJPub0SgH$509V2Y!<[)iw1GPfTvqEboESOcvM&^yBe,kzPTcgQV>sUTTpPYOG_x2SWtW^boBUHzWSZZG9<&rWVTbLIH.Q,<X
Q+fe<pfmZEt)88~k_.+1)y4DBmzyOC%5zD$:w<XfsI]e_]rwJSM19VPil$2ezGhcN!?Gv$pPQv55c?%aHna+StHcj9DbTSq$^:GA
?2td!+1p<e+4G&o$6lpTw$e~AcI!A!$,+Mr$K6H4o.wW9vW/z|IAE77V5u]_T:RLM:G0u,!!3+AK[]n(P>y]0*mf?7|FOpBZp$;a
_^7nDJZkT^cBhm:<Y<%6T*[*Yzi:kaLjq9*h9e^MRm*f?zq)kx:!FKSSUt5Lo2XWtwqh]Vv<DuN?lZ%yZFd?YPW0jDA>S]oKjfQ6
)YA;X$FO2=s>c*a>oDe69UQv|:gB+W*wWTV5x8+NI(1gglub2x6?BJlJbO3y)aaXBxjrz_D,DlV;^AAVg:OzWI>$e&kD 2XSqh5,
VO;NrvQ&0~i?a][R9bt]g:!y]6rZHr,jr]r]omG5A/wp3_Tz1n8)nvJAJuJ|R,Czv$>V;ul!,QV6~/.4hh*SE,lKdLv?EWwM0JS;
uM~W/Zh5a63;irwo9OYQ<yOYM7r=PMT9cO_c6<^F*:W|IJUaGB6i:3h]co5o>nTdo7y]W<:UuT_j;1%B0F)sy(<wAr9K8cT)Vz6f
xd,FA:kHrWZAm~)$6BHf^C~.SMjty3Y|pGlG[dLDn8Z5dnMAr4=vK)WY(gf:3xBz^A:QEvP[2YPD0AIIe6QlCPk,VhPkS>C?evq%
iOTP%_y^RqL0saeEP(a6pL83cTr7KY74V0sJLr<tUSNPYz0/S,5J1kf8sNwt(1KS:SqpP1pUMexNd?IY?^(9$qA9gIu/>_bnf(!L
qMLB^*EQ(cs&rr.3+daJQ:|/E.T:Wx)KA9zx))V<zEADyLqNzV>ZI/)WWsF_kzi(3P?1q3^J!!qRo:+]qWv%nv6R$E0ihvu<KVM1
&3Hxbq8,wsR%ulAUQd?$3Iu2%6>$0J*CgH7CMD]+_w~yGj^kzZ^v&80Ft>+QwZjnPleHplK;~Wys:[z[j2[[bHrw<qgIaz>t,?Y3
9O 1[yZc?eP./phF%0L!C>WH6dEi,^(8pDJ$^4yr,l:CucxB?/mqbyjt(q_~n>jS35&=pKr)$o7?zWBR^e 8MR$yf(;9NRdb$M(k
B45<lbdT+oS;ylDGD&mVcH;5u!P(4S1SEA;G4WXr:yZ5BBbG?RXqYy4Xx%8Yp[epkC(|)NrW%|PuHxQ>)SocYHM|Z~mG:RP7TMIt
4<im^M^Hg;Bi|WH^5*jUW:/ettm/%UK07UP1nZg7rap)9c;Lb 8f^,!:gmq|F%j%*fxc(<^j[BXnE3OcTcWI+5l*WtEp$2kPvJb^
$$?k]%!(Q?e5jUN~Ki&ylt*Dw9/Sp:A>!k*<CtZyj<)+J126gb:qHi7toon?XcT^TFEauXjYziYiIv%r=BA<9gh82iCOFf4/eB7)
z3Uq]iwEQ7]^zGxI>e0/dPkcep:b4yi2QkHarM9K8n >ddG>7%&53Ru& AYusO]7w7tayf%VQ/usn1Xt~(b;fK8TWkFsK2IFQluX
ID%8e4QE[%?_!+25<y80>/+y5J3l(qlih%U$WlWT;!VI0U_AmBv3X5s0|C91)*gknENImYlmCrf|nR>2T*(T4QL&tC6]Zx1z]LXg
$=<K5Z0/n7[d*kYNG)&nq./A9ak7w=sww0=_GKw+/KKCxB&R*MJ[53G![eeXvW[d~++*Gc~Fp/Yd>6.jf7!kGn)3+d7V!W+fh+pa
&Cfeq$MO_s&pg;]*|1K2B2_/*D:ceCle(N2drZaiH>|>i?Oin|*Uj&83.&/h+W?BwUI2)OnhcYj69hL(|l>=lf;LB;~FFBF(L4pB
TtA=m9VkOsz:Ew!i1B>x:Q)4Vup1esOlo:lV2_,gKyTSOXX]*D,a1dYKa1bNw|:+ZIhepvT*(Dj/e$CS,GG5(LCQF[t5w6T7(V;_
r.rykdFXs~+KDSkZfFW0)K)0_H_wo(+&Ml$quYH9QB[Oy(duDfY.h?SwKS[TF.6~1oB,=dXLKPcNlo=AQp%(/jh9:RVneVIwV,[(
E]?~eA)DajgwJyNu|w43x/KievHg;sj9WjYKo&^Pno,/>g5f2bAL:)~_pTO^QUmDY^[ZkDd88Wpqs9k%R%.O?C5bQaJVkJpz.;[1
shBs94HEG%K&>Rq]wd~AgFVSz]|%h_td4pqUQ^>Xu8.MbWCw|333^P=,bk1G8sRL/F2o4RW<&kg%f36CmwR/Rx9$u~Fv1V$c.ta<
1|3TZ2roi&_%i8<|%ib6LB<^8uTd4D~Q>0(QKuJYRYnG]~R^g2_&GEQ8iO=DE0+.~41w&7M(TU;r0~(B=~,8?$j;Bi9My9UFUrYI
U+p7)xw|Lm^%mqtZUZPq?/u9F89HQmKTl/:$kxel+*kkJ)D[t8UUEZDdMl1_8sLU~M4XP50Tdawk9lJ6PBG3vg1I~Z83:636Gcsn
Ih!UB?%/?/Sfr;zheTYog?j:P&p=CmnJ!KON][QotdR&MMlaLKCvPb~r;~YYTwck3d?oMB0h_Pm54qbw2j5siPWqh/me0U|X0otZ
P]d_/_Sh^8A*zht371 5QTp4ef/wVbXgriL7tcs2TNob5,[eIoUWn2dEjuj|qgn<=qzuYSK48$/q2Ii4Jz1>x4~F8B5wkY&Vq>lZ
fY?m99yd|sB9e0Yu*hQ2Lpp[j,L&SLVD80iR]:YL_GA5jf/K$aV/<f=PDrTb6=TY9?qmG^%O!WB0DyF.wGQ)m)bXOz$mFwfZbKPc
&OZGyP.i&8_wUz2,QDA*sA/Kk+*)m6TuvbQ$KY<4z:K,!esx&*Rq1ThF[3j.ZZG|:pm_>T|F>;Sj4UH^S?8hStV*Z5VGt=q<[E3&
qgw=g6c>ard]lUGBJ:su>XMod1LbUTeH[VU.sB)qoM9R([PU%Vcav:::k(L^388dzOYPN*>~Dsx%t/EXvWD<lAG$uWb&+t9ss~e&
~)(ec)g5K58!J3I3KbFF0vp;f;+3Js&p?NA7jdE4p.s_h4ON+C)XGbUwpTx:6.%nsLg/xiPD4itqsAz!gLDjiNn1EWY9EDoLT$3M
VQ:Wvb~HED+QaC<qhkKjeN|p_%d,eD9RrVns0aUHHCz:LzIz!S4L.^v+L_3ayt|HPbUjSE&spz39B27!=h+jNjMpnk]w$pa0LZ%O
9>ri;Qz_pV:8v9Kq_NW4pxt)l|KI&Q9CQ$FxN(TG+;nxGQ$Bad,A6stOpg^nf|K3]+BYnPsis,|Dv~>qg:T?M5$1=Ko;>(h]Y8b4
T!cYWRN_tZE>+%Jbx+xhCPi&szkgwEd1VD4Pzp&!vT+PdwAWJy*Y/zJBaRm)p!k9K+R)_Ta|(Xd|B&|1;pdc7Y20bKa4bt3[zM_~
|U<qY!Gza>u3Q3PKxH99ACM/MGxQ%yTBKlG[V,><r:W=c31LTOkivuT];Xc3_my)U]^9CbF6+](hH7sEdvYCWK7_8eG|K&[bQQ:N
]h?;^jWX3|4ed[q,4lwT<UFa)9]LU<7)?;nM(5?9;e%tVq7qynIJ:spv;px7J4i+ih<EvsRr5jFmeqf~mo!&vj67UX]jg^,PZh/1
l4RtzX+S?F1y;Es&9!8K3J?ok0YgjNe_$mDDH6uZ4XSYHe5SRuje1]jZ=CkYk$~c>*9TdJQt1:XTQI=&2Q$WdkqSGXjdriLwdxbb
1dy4Eg4)2RKs|6QDwB^$[(|B4pt]&k]Q<;l|Edk~;5Tl>WY|F01.nP2hsdww9_J7D20/hgkxWnC7|ykU3IvDTyttCdY&[lFzKp7C
MUoBAch5v6q8y|lrk=VA,[vF;5J]PEDRa_)qH_4k3PB_NV.WTjr$6$7KahKzA:0C2?KrWPsO4q/XPfzGwWi+_:_|==Q6cS:|FQz6
Vr_H;nezC!GdjZ_<e!2x2ol/:&b]Yr%_O:HM.&79xC$HPpCP]<~;YE]J(9fB_fj7TrTteLWaRNTQ2lfF3o78.U,h|G<M8YLIyL:S
S/.:PTbx(GI2PY%L$3!y+4NmKH)f%>1MhnLl~m|MI^_+0NZGJ!=ppJ:crd?khrL5d6Dv:f6EO=XLg!TB/gK?_FI3Pwjk7jCb:(2>
,Jz^^XdlatOq&fnzrpszhpKF%nxh.3AnQGCm=OctN_T.ILsH7vv~zDw&/iae7UpF;B4N.gLq>/L+7jV$OxhU>^de%E3q16UEnA&3
5Lh)_9~a)JeqX,AH?Q?jVq=d|jG3f+9qnZ:.F[4Py:V+R%nyFP|<<l[3mQ!joSU!&UBAFu3+d^wrRZcQlh~f~F0FjN,1/?YN1N>*
&&=:Gx0:U_Cq2bZt$[8*Ds%;pvayBx0=S*uLMgom5w>%_v0Fumq9x>Yu/A&M+1UL27p1gA1BRMI0a2/LMdGpSHR/1fW^)C%FenXG
ReMBI~5<KHAYRL,B;%$Zn~tBDS;<I4Xhl6As$FVH+FFk*H4Z[HV;x)g?Bsdh7TZC!3j..n!WLA&m%8[4b9E^;3^<N,4lof(.eZK/
IkSZt//p)*1eXj5:0P$;&ogot~bXu:Ut6.j>;okD]2H|MJcfgF!tK=NBE^!<mqI[oD/4*YOgp%%<lTfPN28kt[XubFz$AVBu~Oy;
]x&GZM.oc_P)^fYQ$ZzX0RipKy9g(ZQ0uKUDlFQVN/k:oTc/tD$NAz14Y]cjP_eWxXL<ZgIM4cH*MC]>b.=aV*Z^KfLw4[OfQ^TI
f,U95Hh(1j.*8=d&TE+.K+avM79)L$z>2d3frI7Fh?H;>;H9u,v9wF]xIk]~9t|(jX_T&(iv$tuUE|)<~GK+u!rL^kI.>9^dVgaM
%KI+<~44a^h~,gl^JVV?Agdv.]U.nZ.+s!!5VneXhd~orWYO~91B2o1i|,9/QlTNa=^^$ox_4s*z&dVsx9~Eh8A,21r:)/9CV==S
a_wX8A3,qCG^>:~U/n|7UZ&S2R+:6beqc9i~cjRL0?24)<+?$qRy9.PD=X7Oo1fyx>srsdYIBT~,AiSg!(Y|R+Y5DWJLBByuT?*P
nTn%ikZDDsGTlM4WY_1ct,JpG?CC7yEX4I<hySA~)()BvrKcy&g976v**OgS0u7H[ViV1iMn.zTVN<am<!.*b|Ae)An.PhY%ta8)
~5sy8uJ)nChxvB9u&=E/~TEpe,$Y76~YyoQd?u!Db;vm|%%P[m!=~(FmM=Y?tvsRkq/1ylqa48g0uc:;v.Zt2O*/*|1n+)B]i$v>
N_;wNy%$fFyk6:^y)I+.JZkRwzSyOE%Uy<>UWeav6/RsE~|YE)g;Ny(Q|~z(X~,CRY*Z9hreg[iy)LYGV!tS.)zgi7sfrIJYw,%z
>GU&Z^PeHXSa,/RT:a/CWrjRvY%]HET&g,p79u:hN<xk|%ru=1QLXFx,QTtYfsd:43SiWKHfVje%kLdq7|Gm6:=zInON$^vP,t]^
5ht1pzgrFxbf*QNggJJK95[b/K=?a%xAQ,5rc6~bc+n_GcO%UtAUzmhNnybagA7.o5J1oZ.J]jt6]tC4Wk[q+ONzL5ue:4^qP(Gi
/LRR*.eXCmUwyr>a6FG6pl_2at.]+u5IC2^wvB]VHC%uNq235XTOHgS~JG0[0gpUwe3n!w6&to3VVlr;S[XA=[)G[IpIY4gQB%u4
UN6Dn~7k].5<w!qrQqAz^kq(_Y9WLGXx<4s+^~wzD%+.,mIT(38Nhc]clNhIp$ppE560W&ocj+=CR*Xe2D94e5IM4p|l?*[_ZcYY
qz;|/EHvwW1I<jP)7nB*J3&<u>pPN;V=tb5leNSNIOGJ9w74n=YRP7]F)xcH_j=D/=drQXo9c5J*KTK;tDSDMw(H,.K7pUMX],uZ
^!w6QklHF9s5y)[Fu,>i$y2BjD/L]RcwGG(*zMhz9_:ajSIA9s$HE|Z%A7S9ST]JmKIupC,=2O;Q?vx|rfdDWe[Ni4/pWjug|?_R
F*e|;nF0HX<SsG$!Ph&aJ7beNO)PKI_|<vy;N+&sQDSH*LU,UWJo~tD+i_fU.Q=:Y_O/a+tFL^jy:w_4w+7Z3p1SZhPKTRuB$R=N
c(GmqU;Ea*,jSyGGE/L5s(/igAZK?7P&9wm55J3TLHlOiQFJXb|lm*9&=$Un(Z<Lbj>=LuaTxdExeY2I5<Sgt91Pv,,ec]GMi/kH
eM:e?&r2]$_K4vBWNVkV?yb==n%+p>pQbI19mP&!kBv;oNbV,+>(zzSvUDYuDff~sJpwD]hgQm1b!?6L*2yhL6p/b%b.Ip6&3>t8
a0gfYzl?h3fJ^X|kzrc&m*(mUj0Hh^17^&rW3<uPH6_7ynPdHr&.ia]xVLM&.1hB?j3]HL;O)0I(=^JyMLs!sfHgPgGeE^o8/=7a
yZJy]i!tLpU!rCTk&oat?SN1^nd:k?0*SB/Sk$,kNwz.2.)K2OGp<T3((+VKA=2:m%HQc5Pm?Y1&~M5xu[yl.jA6F4+6NR)p]l]_
998hzq.M+cL$+gyb0A3&_ZcCb=3K=~$A.m|DC]G!dufjg[_j_SZiVx8FlWgW=VEWHY:XcRtcU7R>4h7?Q7$_c,.sCG>J?.3Hi_%/
$!BAOS[hv<l+h_sTmJM^xZLPLHtaUHn3fG<+;$%J7wchkEn)IBm_u!,[+ifj/E8!^4C$?eGhF2DQGLpZn1E)nwgSk3&R4H]!PitT
Mzz?X~|oS3[Q)crE,H%n7~~j5Z33;$z4)Kxk]6ww3ym&fJN++>r,$mgPigU~fz064Gu+cvNA5,?dePU]FN]ECI.;6&IRZ)&CO]bl
^4atlh1i6&]<iPzPmy~FiK|UmvF,7l*)8^=nIxlLp|d(szwq0WWMW$UymU5=a_1?Rjnogi6,_L5mCp&hcXnqxE<xC]?4xD+5_[$N
SC~D15gSU_CA0&Z4lt,iSzA6%z|,TT!Tbw%<^t!7TNiIni|chdo8USw~F|U&K;M|<a1^*2b(;^gJb:,HPO)f<+dA=G]2un%7d^7J
c^CF1)+A]~!)3t3KNdBMMudCu(wLa:0uE=%7K$GcVly(9UmB16Xvgt~yUT=yk4maUg:3^xrCg>yk^9HDARPMbZ?|MK,oK22zfci/
61xBjF80Q)u3_whhF.eFZk^,T*lp]2]<v1>ZRPUx6D.^4;x;:bPr: 3YM6<oJH1XXNjcF5J9W<fzKGW]$(dMPzJ)XAUP 5,D.Pfk
O7b)|SR_+.O+9K_l|:Z0D^gj[,<75y]EJ,j].$:B*Y_I[34v~Or+<o8].rjMq(ZnnQ,Xl.GuIIs38ov4LV7S:S<;p;<$PgK>3G>g
QhqZ:J~Uao*J_+sHAPRMX?Nvek4qTMCQ(:xzZQo>9>$1tT!&LuUvzO(yXD2+*G.3$LwUgkIzcG,L7:*S8rs$81li8Lj5xW=~XcV>
5^5)qcVm!gB6N_~StmaQPf=t?8B$|)0NMIh5M:aab7Y.y.EilZ0=<&I/.)]z,Bs65~p&~*BLkSP)WA%D2r+OQ8rIuueN?snOah8;
,.FGW>4(+[wM4fw0hC:I2_|JbdaZzBn1T.hpf|9BfCpv=]~:teFe%G|+5B)LFR(EGB2]p;pls|V7&(O3(*pZi4DM^;fU&*vnOZmi
+J9A|y.l_H/1^!.&B%8bs7!Pbd!ZM%;(R9w?[Fr*La1RGYA4_Qf6^/ZYBQ(mC5jymN=o|~HLqUB|kF;4tjts=6L0fwrr6:W3pL>)
bB7tb|K:;h>7K>dN~V:E;G?cnb?WP^Vb 4Q]*hw$*Fn&D6W?==px>gUoRBhZ<T&]OBDWI!J2sfDou?3;]?v0a7+i(8!lJAi9?>g1
&0D!l1I6qS9d6B%_dK2G8zpChBGgA*y.w)YuR.ali[)wTInhfwlCV3g&ogL7H&zlt6tiob||;08Gk]KR3~0YeP~8m[GI,N3Of)A+
A63dMpwA~GC6kNTsYkd1+VWoxOz3C6!wI0E5^e^9jdqU$Z6oWK)KQO6S^AiIOD+qghyoRLNmBQ;I3+;13TwJ[oT+x73Yfjp/WcE6
nYg[Hg[7WDpI&%jHrQ&l>T,gA/8)i[?x[ziV%zd^+7yx%7*Xu_Ipk62q],L&u,&h^^xslk=TR1euT1F9r%zU(YxeI6s2?RXLvfs=
;Qsujd]eB$t:/E36+s3I)A?P8aIWHzsc^,V1kwg~zq<IWa=>Kz[&;X!pkB2|BZp<1l?=?d|U|!7BWF$JnIj<bT1YOzj2y$6AetP4
++U/y!8BuMxvcxvW*vb<8*6;5aC0R%mZ1UTz3SC^FM>&gEWvPMBT:cLMFT1hcNj(D3T(0Ke0|eLzNAWg9nb<y!;K_T?Ga&:mdBJd
WcV_?d^Y_E)y_O.r.l2ThbL]HVy(m]rg8<pG2PTR4TzVz=+JStPm&&v?twhGL:7aIVdpYd5!tP1naA$[_%iD4,JZPsrPtof:R<~[
UYGWzN& 4F?B|cf==L_QVj^4/e( 11G<D| 6EKpFLcXkqQ8^LN6$11o[WWCAG72 PWN6s6c&)Q(Hg_d<>BuVK/F; 4fhklWJ/fZR
1.R%i,4_^l*HGPfesr$N3nWwxzSN$AnL4J=&x^4y4Q(n_T2I],ohh/RvJa0+H|t+oZmQ.[(Ved^i7SVAQiG3pi~aQy=k!YX/AVI2
qsOO<Il_=Gi|Pe5Sv3u;%/pb2|f;5nn=G~Z>cl 3aK9p0MW7Fn0XI1f2Kbi:?&ELhd[W= ;lLMTZFr)8qZ?dO;y%QpZpeGs 2TY[
hC=~IO$J+iket(d^MReMm$E!&hxxYNb9k9J8yavdw=^9wXUdSkK:K_b&=/IZ^E?%Ugz; 8a2Z~u~>lAKY!xlu?(X$2Wq83PS587V
|mp 5c<(nPjm6A(E0Am=$otY 1$Ut7*bDvp/G,laLkHtM=S/?Hu*$TYTKL4qnG_ 1O2=<*AYGjv^Npc%3U**3k~q9V=h1a$Je,*t
z1>,77.~csz2vRucC2ggDx[q<Q,$p1D6CXOL= SFM=pAL9d% FhEV:H0e:S2~1ohO3~DAIB7+U%*s=RXsa0*,gk!qIjFZF)j3N&w
f,Ro_pGTS=[2TQbVf|iUFl|D91/%pE$)06g*U+ tsKkqau_|x>^/%p>$G=z5 1&K/[M[fOoVN*n%(+0kas:T/k(AY(T:8?X%Q7 H
HY:hWKRw|2qH[fxTq18cnccP_WoPO9OuaOo_k6)(O].[7zqA)tVkFBqN1ou?A~o[vvZ[DcRFn897&ZAcRtyQ&ZYO_JaOlSRM)8P0
2)y+f^j^Z<xV!uBl(NZi[)Oc$8H55 6[7r:l/.Ha:mL7]7W2W$dPzRXD.wIgwY>hm5LkbBt~H7,C7/tA&??.|g[;uL tBif~<&=s
I=*tbHI78*h;C:4:]m|=bbAWa%!9Y8qugWTRKhL<?(jJVU>nv:RTP?CMoEOG&yPI0R/jQw+*W!Z~_^;,z?FW00un%ZcfXr2OOP%V
AUR>XO73Zg=Z[a_(]$xOsaDG5~_0M+;4Ryj,^%jeM2_0~w6/+*b(jFWGxHIlOiBOeU!+s^(.nP>_~Ll(/RGnAWAF[Pm$9nGF]ef6
8Gf(Ot4zpS7=KP3l/_Fc~D!5.r1FP;WCvO<C6H^^o6cAEl&I/K:_<^WUlFz%UuS*00Tpv$38bE/>tQoe9!j4+e&M;)=Pj^7<s5Mh
w8?dDTEt94ei6acu/&;G_/.Yc6ZZ<[oN2Gj:PjPKs!Aj[)d)%dyha]y,U.B+?Eb5kM/Ta9nHb[ Q(A=q.[RG=M>|qs+F69Cr[IC)
ZnK_(S;C3WWFlUSBIwD=h/pB;f>Id/Vd+ck4^?;)x>FeZ r(:+8E.:I93PuAYMVV39Ck|HHmLJV^?Z!A80.__D) AHk5q5K>4/b4
E|?XvCEo57fQZv$hBs,VR~EQSQyC3)!i;aQrfq6e)RW!O<jTYo:|=VGX>/2~|w?:X.&d[NZkjl;+Qx8zuoohbtH2On% U|DieRmL
(Xxv!XQ_z%L<^bY0&JWn2xT3qVK^vE=glD3o2Mma|mLL2/mIrZjl_>[zkP[Ys&r:I5lO]N EofWk(9HzPAVxZZUhV2s/JBDzvbP9
S8t8OIlAb>XLb4+g,7a:U 15cISq$[Xq rn|R.R!F66Vx 99Bu%e;.J~a!aq<]^=Dl?R)3mn(F1w(oly2k$.MZXPRn,2ULg%^8]J
A&Te P!CsKvZWR[MThebm|G9vX7(YY=8Y*%)hS6 oDZ.io_<[iCSXIxpP] 32d6a5]/i1N&<j|+$nf&dq_[V<mSU;u/HN2o=Ib.7
O$u2X]!:<.Lpm|OG3.bOW;Tc[qv:3LzOgLvs8t$YHpT+iH+u>_U0<;Ej,xN^[3rskNR_wnOH(EA8bZa!x!bO[4$SY0E8m8uO8z_,
OmJuWS93G7GcSZ/si4qzAYzFrKg.5YYmJ%Qbo$UwlX4R~1*LJDu/H.,>AJez97Weh92HV~I$g|hcMxxriGj[aOTDF7/c%Sf:q&jE
E)cnb1<UT,lsiG4J/lB9TT.Yl.xk.P2Gj^qn6_gKpsO$r j+*vBT!ybZbS[smldO|6qlTS8Id73,9mJz>vjsD8A>=&C[q,f,zxh$
vN%g:)^sHkAOk~8%2+4z7PBM*SH)T|)(/Tsh_41d_WYiPVO|6&Zxj*,lL3a|~gOSJtELM0Ej*8gjSO.~[IbSZ:XN7r/S&+z*/6.f
Fskk&9,9ZGAn[Sckp)lwiEOmem2h*vFGSDpz/xOEVI*I0Hc*Zt8~_eA&/SUxzqO_;~B%Q+c~)^j>ndY!l[r=alBP^N(^lK$X:/k.
6/<~|ud2,amH*H/(k1lAKVJhLq;+.2~R!u8FQqP>eB!C!Spwty_M<p_d5]O))op0gQ^J2;uj.uqcykoB7[^]>!lLp2f=8Y1xD9kS
9mfQtGpyVf2RP,WKvoU0.)1qK]rch3dCz0CSwA_ 2?&jwq9Xu!sP 1U<jjZH5WN]LED G&Ov?U)7 p+CbX?FW28/]gj>+H.L.fpB
RjZQFU0S]>_Q?G_QBjBl^m) 2C=>BqU/D~u?J9I>:L 1R!~sw];(L??Ju~84 8P>7[xt7YYh^;l:WVh .49G|d,QQEw 16xXdg~f
?I=Y4(>+)qukbJksX_uDQyw4m6gpECW.gX*arwn*~b!Vk2j,bR&Xy=I3yuqTK;k[^,?Ap8[Hma1Gn7F/PZ1DOgC_M:U0BKuD10Nw
CiAtYb%KrfRiu]k/](z4Ts&Nsv$C]c%~WFs9,L97C Cy:AQsL1gsKX~9:9*1Gx:i5Z%mN+TDA*pvx4V(vZjSJ4>77CrFJQY/xceB
+lZJNH*1O9WHisv!,JNG~X/GwCL^:+gGJxmTLQ5bO5<O$/keYVrM[oqX?+rA_1mqM<*TPb5nR?Xq1nQ,m>.nWxkHY]TgPUJG0RMO
ZQ! 3Sf$]+1?0)e_Km^B??0Tzi&jmF^H$*MJqaW[JEO?p?,Rj;pCj[3T^1w[BVitrp/FQQf8bk;4Dgf 4BeTfMz/cjxTddE) 4BP
PGm!JV)sw>HCNH_c,dU[p9<>7SD%Lzp|%%v%<E<eu.qRP< 5ccK/cuf2Pav)RS+.*dld+J%/>g<QvJq, 18+zaPy)QDtf!c4jG1
a 8c57[<ZLnzr82J(r<pI18q<qQ 19W[U< 1>MOJw56f0/ZpGsfnokq2kkANJ*>z4rQdOH2bUxQ*myDkJgD?ue<w(|ZxmennJPii
Y;pA;C72EYMfZ|N>So8~GyfSwi90Zm:]EgPHSbmc)+U%KvQ.)8LFJ3%37>vQc[ie;9%3B<7T]D6Z*epO$MAs=.~]5RPO/z$(cT
Y 1C,dOy.=IMakTQ%(W(>^Lpi=Z5_0koY)qxl&5|)XKdWNDmHkR(d$&M%gE5b,596_e[kq:wbU0T>vzYl)E.lDkI)[nWg.r[vzzu
PxuI%Xw;/~ls:K&Bdl)yGPFRXs12spZbZjUCoO]7B.b8,aN1tZ)rPK~f!Dj 8xXS8eS.Jj>?Az0HcddK 23dtbW7Z!>A%w 2jokE
|HBZ=W6%Jdu&rmdK/pcjCO>x(a+STCa;BxW;gyX7*y6Iv$s=k5LRM.7ZLQ.Srd3NXhTUsnY[=gts!H:S2 12MyTe*v<TY.vGwbxR
Iy_d5l8qCw>87EGTg.zLFT0TA2D^x.tMe*ED1z:$)lv;|wK[Ab[Bw%+VQ%]|x,(TK%_Q^:8%%8M;0CJ(QQWZs5NbuS1?_x9brwrV
L8n*ER<0_3=)UWCKUB9>u9h>/lD73~UE%z,QZVVK66g*r5^k?kncH D2vNua%_t/Be0qk7Ac3,8!rQ[O(HD;6j%[MBZU1w;^YSlK
r;;oOfiN?V*VlxS7Gyi:~.9i&cK,k]K3HslJnYYn83rS*M|:73?BZ?w 4|K_v=44ra^>|W0QVETaJtCd.mZ 3>MBoNy9z?f1v9K6
Y()1Sw/l[n:4Y4bLtr>mH6?BeV~EJea!$_Jb[:F4$Y2r>|:21et!Xj^]n!~Pc>jLRr.YWJGhG;F2R3E0!nS]e2OWSMjhhb|fXSei
XnWcGqI>2d!kNPt58e;oGm|jmF;~p99FPq?YXBER4g&Hrj$<u;7ZWc*S&h<(D_svsH7+G!e>b<Q:blK76Xh7Zx(!K:y3xNkNcGPJ
ZfZSU7MAILb^7tnaNS5C=u0!t1N+tNEX:>b7Iz 1sV)*gzf_&n]Ii.s!GLqvJu&EHgGhLeNGC5!ousA:.qzB69:h4|&DO_StKgkP
xuJQ1J!yn[2;P!upZl)eZE[gIoFcxPHc5?8w0v 5CQ&G%V3DEeRa56z,QkV?|K04NL2vzkQSo/Lx<E?m5GeMZ)BVXn]m;nZB/rfo
|9_wU|O9uMocR|dc%!k X~N)TL%K.AE)I4&uYnYP_$pO8[(!>En>Pm+<c8Th5p) (4Kw[hf.WBDm5FW+$|t6&Y.f079?t,33Obye
;sjv5=O56;>EmN~FDvra.MAb L:upKt:k<cm4bQzDl4nWO]6)1LCStDAZ6S!ngo5y&k9Mr_5PSd;u( 2DB]s>_5Bb$]|OPkLoHR3
v6e [9ej> oXZzlGnIZ;zzxi4q&ZkdOuXCwfJsWusxYTQ$Ba:7bD$=%>k,e.r^vVQ!j+5:%k9|f$D3y,b(LUI>:zJ&0u~7>vN^jP
x8R$9VeKPC5O^Rb6a/Pj1VI_MEL!&;mdMT2<_.^Rt9A_<xq(u=8Z:fECPaLBWwhC?laPGr=DyV|YJKNn,(oOom&~zwhe2&xr>K.z
g*Gv!OX,QG6pCv|s7E4h~0aNjmd0Sosk/vR!~xRY(D^guz1gW5joJ?|tHT.u7^$if;ZZT7fCS]TV=A~:k^WY2%Eq!PY][]2LM$hn
RERB,AL3wSp(6na<e9>n4PzI,I8T5v/H~2e&6LmyStz_;/ma9AQrdk~2KSddB,y93Rr&zVX?crcBfD 6U;P41^$!(*>Y^$N9X1N&
0]yNc>qZrqt>m_zr9UYGg4PEy0r*a*~+GS(tRR/SExqbW2Wyt0:*&mj/1ER6!%]MoeLg~+V8o):8*~i+X,?zHI:%0w|Jk%!*0vf1
/64luXOjX0PM:89S%Wa[9sH*_EpzNi?FN58X1//D.[(&vo71_2M&65Swuks$gAg6ngV3he&;=/Ln[gG7+b7cz[g+ad0M&_E&TfNH
dXA7TyU+2,:~*a<JLYI+litrU1MrbW!k]?6.(annSsLe:,^H]=6rBK_>W27^~3e:bkG_qGUG5<;c_:4fj)UaEXD$*lDn.sx756zU
C3;>P>Om:pl0LLtn5^jpm|q8)knSm~r&mGm_7dt98:tVaISVlo;FFKfGNWmRha7O+UUuuo)xtI]lB$+!Ef<9Sp(+$>48rO6;;H^&
72|G|Bxh][1_8_Wj5f0dPDvrredrdiw83eo02nL3Ie;V58%M%2F+XG05l&tgpaxdj*8Btdz6Lf.([):^HjGGuqnHDqX;N0abOISy
KJ;M4FO_G$J?eid|hzb?~De_X8v/:ocz!x>?a)I:kZe^7)EF$LOJ;GNgu.Na0<rT)&k|hmN~,Hc:[i$zcZYM.d^]:k+8)SpxFP)k
T~%fU*CV;li^,;*RB6hVwJFdXjuT5%V+gSP9|&=5yqDbaW&5vMg&&J5~UhHN+A;APvvcL5G/0ksiGKa6=RDL$:zYO>wlg7+Qtpzl
vjG5>WI3tW:>Xbo>gEA6;N%CBlLjWNO>a6.7a*W:,YPovRr=AbZT]_Q7.~1_BSzsxdq,B%Nlky~aC.;1LX;waeh&Q2;FCQDmPCWk
eG1YcyF,BQ:&|vNGLxRKog2.YlxA8E19W:$Jbm0dbm4$eQF_gr&)yjTm8!USw,5a!_Mk] 8C*n5?AV9?j80,* GMTkq7rGsSmm
% H~GC$jb_7|7vTtVJ2:aqw*a! 2cYFYjva7P&Y4Y8|3;zSyrpo]G~R|forZ?9>_ IVp%X_OH|zk?dI&UTL$%7uAJoP/(ubcer7p
p=N[g]c a28)XLRJ8n+I9RrH7+MkoM&)Tq_B7j[|C&+b%18!/Wib6gtaQ%aT6Ku1&2=Jj)9wbLf]*&> 38jwQaM^tfdCH+,T DGF
80;o1ZHHwY*RmDM_qQmel58vTaW5%923 24]0I&I%23_lf;5ZXfo6kyL<jnn)PHu+LEt0%>$GMLiQyQqBwUW0x[&71W) 2u%sq/G
b;k+%o.[&tSF>MGOy*Sny]!LTb0s8:Ai>S0ICddNfq.dEj=BLJhzf&zsaH~Bp~!gme9i CB^HPgt[tuVVb BL|Oxn:_T9ZD((7Yr
~HA3yQ,~t267~j+6a B8i:~4Z9O7n3jX3IejDglUpp2efhbv)BR5; A~ZO!Z]j4(%f!]fA9~YB(AfXfYu?eQDG[NCi/4=n3,_~8v
Ez,PNw 183.wv_z[as]]]cYIu%/ne*q0cU5ufYF/EO!]b!yH<,s&xI)xe|X(Z._d$>kd&?53aP*O0fK5f8OUj1lii69XvP|9B_z*
zRuq$whAH34CaB=l:v2|=VW_0hNz5oQ<atB!D9]QX%^NcPEYOWYH,2Lf,a*se=Li;8Rl0W[=6:S]Ce=RE=*OEPHOKbh%+Y_;]Q.1
FzgTTR[UmGAyz;Z.^E8,,V!rpP?t4XbH5yrn&HS,7OyskAjn2&iM*l$_12L(tZEttfFeT4|n;lDkoAYA/|Qck,;+aUm(Iv_,[K~H
>tIf>yC*&)Jo6Fl0=(x(?p:!>DlMAE5RS;hZQiHy[r=fm| u0LC9*7SaXz_z&0XywTDR*.478zUt/ej R>RRE$udo/~C.ji;*B 1
FQntOmv~.,ZxUmWyGI7|5k!vdmCQe6x9 4JE|PdjYm$M|V8i/[(Q8!e<8/>z? 1jC7ei:_=vz.^;<=^tpAkZOY6m7?1wuY^9>*;z
_yM.kmF!Nv0b8^2;ha)zKrsu :Vh)?G:OBj ELnwYoNlz&Hk4/woEoR=Fits8blh8EVZ,+TWML8zPwvzWlYE^N~DQXq:ZiGx*KWS
N39,1e=Z_8,<jEUKfro0L1!%C[Vn[ylN~QKdyPIvm*KK%DExe$=tH~8;4KKbj.a6kpoD1Q40V,MZx=Yx 1I9mP~Qm?tnFQ0*!^%f
:tBwinU%1G3]xy 53xM?zhsx|%Uw[O4|0OiUSn~z.CXAKiU%o=uZ;!=sxBjheYJv:L[EiCh_Bbxs^]J[]wIu&mwGt&m!>Z*d,[Yj
PA2J0^>s_p!vAsZ>]b3dZYi99WEePS:0VQ~hiL087|hK9dRln>%$R<&W/jW/tmL=9aMWO&;Aj7tf[>8uKN^ALOFhc=!mM=xguDxB
V!BtwJOoBmA_S3dx>gRyu&n6k|!E31SL5xMq.T:o=U*kAG?LHa4W1GpN4s23hfB<6qAjTIiV]q~6[qwlz$Xop0o_?cUbZZ&0 EEQ
wuHlqtiJ>8;0bB%J.v7A32((<8CBeES5kUxkKnwg8dip;Th7*AROwNJjdJuOCOZoVKp,~PM_qrJujW+Z]!Jxe(bZnU7RFBw*t3H+
W.L)5=JKu.Wy06Nutb.>r*kGf(2+oqq|Mo!ZMfCC~mLUoydD[rSLmy~cNeVR9~rBWW2.By)DPiRh=7:]vqhU<bcebLP[JO5Vk)0P
sxZE0*reQq A]~hfCC(5m^Nw 3I[c((7j7XVxCvWb~ZU^ 7[q1:mFJ.+Zi%96UJ|Y^rCM+hqO&?f442f<eb<rUUA%Z57Rt~k|aM$
=0F~?dcfk_,>/+t;&/<gcYB|Zu:yblW5XW5ChQO 2:7g/:MxZT~l1:aNG^FXPuABY($Z^:tqd79n= Mf8=lHVU<$g)^AXw$Mj!&d
L(^Zofe4U:9Z1Z.p),ncgVEvD 5]5;3^jqTuq3ulgh4GQJ?(p$_dOX&Zjrsw72mp=Tu9mG 3^2,S%7^VX(%ma?f*Du()*35kO3_=
V2$J*r^xFc4V|wSI1ZgDbI+W%iMATj]RI;<[5&yQE*c;<MtLrq!V6>m~dZ DPLVBapBqOH6YkF+hh0HXg$mvbX,np?h61rAwKJw_
Io3T|%1Q(_hG7+r6FIsu C?7J4yDKSFvGIbM8]f:bPO<GCh.MS;l;:]*%bFXfhMT3s[AV?1b(BU)HRfmZwTEx!XY4Y*lGL:,T_1)
^(M>XpJ;o.<oVgMX[z,~F/rCJ 1q2,|v1kurUSIcNnLwU.t?X_v3!D_MBC8U8D*o,ySJ;Qf~LD76rp>Ds!/xK *TsI0ylkmk G+a
ja*ybNmaHEZpy3?!OtY[&0y96o4sA:q 48(cWflG!gdtJ/N,3hb79yE*U/VVvyj*OYIp])SPTJ>Cm6&sMPfJPfTli*f=>Rsk~ 5C
8K0mLgt2Fit3Q.Wu|zs8_77zPKD$j~I,s0BIY*^b3x0E8HBmvlk4Z[IDt2_wa(G!mrN~..!l=a<JPFrb3OF(g=1sfFpTQDv[ugjW
r>Z<(]=%;mwa%g*_c=DwPXEb$t!+i,anf;4P2~qeu=8vcR6(jTEvR3e~5GVH4/gj69+,7N)QSi_RMv$w&yUO?aY~DJM0,IrL&7il
JpF|q=^2*z4W,?)[g1FfOPPwkIlH67>Mq<iJIgjjk?c|kL.wKoKt.^1!K?Vh_i_g)/)GxgW!r/3mm9>4&R|/Dv$^SIQwtR=ZEwx$
$jDB.AT9?IN]A*AeZmWk!wWME7,:_/bQq^u,zZ=Vb)K+4eMCsn~)cfi+]dJXY2%K=eiA5tx8LAzr_eCv~]MIKE_J.)QVb!]XO.e)
|//=&>)HAUvan^?MTgP$0SJ%tzbS8>hZ%Sx;b5^T63KpesrJz5oL_+rME)E,jCwrGLfIu_o.D>fXs$;vf_a5S_=c9!vvTo[~5H~I
n(3*sOCJnpk^lZKLOW1r;|k>o(_BZiU0p*7hbXr1%saCAgu~bQLet)Z%9P]5))yCBwAVLhDy5F,/%.t$Gz9ig*E?!:JVL9pMnxm&
x6UC0V)O?gPn+?NY2+1o6T<PyNy+H:0Xs(>9)$F%S^U!g4Mve5u,;XXTC<3qQEf|ZJf05B%G|3x<M3Hz%4$;OK.znr?|IDV(tI%!
AadXr!f3%Jrf=Iie/qF7fqx[n)ke0GA|b6WW7SK+;VG?(W9(bg~Xuw>caXF)<ZT6&5>v7]Fc3DR^ZmQs;d?Pp5jl|p~hYQ((L/Xv
Dgj5=NN(u+ihgS|x;]9bjJkS=Js7KF2FZpxQxr./KZv5^31R,0Vmo%i;Sj%x(x)0gt%W;7h:p)z5ir(uK!<Jqy!*0<_FDx:mX+jb
gFl0cD/bFPGy22Jq23[*JuyM&v<9(ro9Sw<A6^]1nJtx,]i0+wgyxpvua3:m.ED4wap9Zp^aw_X5V9jy.zCLON][7ngPlpe21IE]
PyS:;6o61<Fk,B^/^_2qPlnRApC*eAYQ2(gQ9m;_;BPb>%m4F]GzYs&q5]T]+2MQoBVjvpymc30raq%$s7|(isIX4u3^)sDxu[dm
Z~_*U^S2(u91]4i.DA5jszNHm7e8sQ,HV(ETCPOPiRNsFwz=pnmy19oo:wrALpbkujxyZ<E~++qZ4:ri0Fs8fUSmF.nu!aBk6]Mi
zh^dk:ztrvcqHfM3BZIf*ZWp096,McSH3UVFn[IRRX3j5W)Yhe=?_woKIx+Hmz%I6A,|PsoIVnFiFgL4h>%C9g%rqEemtG]Zo.5,
rf|!Og=GJ(xNroy%=0N>/!<c)QFFdA)Fv^qJhpiJb0)ShMo1:McU.%l4pjAc2a;[QK6>!?,Tn65TDjvUIm4*00z!WQ>aE1e1WZ._
hIBL3oZa9Oj9>:W(g6>Yub3P[)xC<weT9ZaZ3R_UoLyxVd67C0zPkOE.6&/,eh4Ql=z)oCd=dAdVG=)W?1s>oml2,n(luQv/MBiO
m|;my&$nb:(Q.?kz4&m^jo8h++bScG?_5I(2)|gp9?FG5<yw_sFK+rlvkqJUGu%ZGK5Foqa:Iw?YoT:K4yHU[osE,_k_eE.8BKa4
ND/4u&CDBjv|y[&6IicEsR<f5dh[;B=0+GH/CXmy38GxOsQ))3S*YSOE=v(<GAbDxxX..ba~e+_)8rDt^1X0oRiwbB,D!1S4L4(1
4qBfvoty4zC=bXhJha8H1CIz,7~9ZNWzALtJ=wNL~JgAj]zWu(b%|]s/Fq>Rca*NQp!.FD:wcGs8hRxms]Fc1l3_qzZb5r6T=gjd
Hc96_$s%co1gr:UL.=6yNdwP[3K*jscMYxPTV:lbsxtn,QnlXZNnj]LS=c0,z39bdl,LqMtbY6CmmC|IXUJ^h+?Lp40qDYQF5Qk(
$UO]qW2Lu_sBBB|h1t>7]rx|KH>*9WQ[,My~TuU<XvvB6vYetUw=L6W.AF:cOc4&g9]uAuul.Ot82b8Kr&JYppzJXL3i<e8&pV|D
mVTo?8:%J=Eo9<rNZ6Z$ClTWjPMLYN;Unba//T=!|PfF0F.2VgN/zeA:)vk7Yfbm(TGOPEZ!6vZV?0R~Mzz+1!XHOcJb,Q1ZG9UW
bAO;efjTyWWxrdP2a?jU5<Rk<!n,+HJ=M+l;M_G~^E*n?R*X_i99<P0*i%YsGu;&L!J</aI1qm)O*3TZhf0BE69xZ|fq392D;>mV
(=kuyPY^<_gH9]lKJ1A_6<T+_!*q^03Z|Q/MqSzt%Ilm^C2GV39MYd=%<c%9fkKnnTNLsg;)o!fTNo5zEMFgDqMfNx2JIt4qF.zi
x+cR7~vzpx]M5;!oncSDy<W_M$L*g9Yy7Z[ux~C9QRMHQwZ^,xW?R&2)c^]O4o/eFngQr!q<Pe.a|S&&.,3M2yo5H)htqLd+:ti>
:^[n1FIW|,H[MC_9tfRYyCV89oEoEJS;[?&%[Rx6zkz;<ft7&iO4eXglPF2k]SV?7f57>e)Z0L^YD7RmmU~DD4emBDFT(?/:f|zF
.s!cKKIffOc=8VA~7Gxu7CY.gt);DL~vX=6B8GpJ(TTyxGnKEPg[<87(_4|kZ;6dB117n3Wc(Za,*x9x;FX.Zo=HB1RMk>p3n2nn
Z&?od=~NBcR_08>YXL1,OXmbUVso0n!~owzk[I<[2z_GVT*n|7;*te[7rgJ?^~SD(+bmQ489Q:^UZnD2IZXoQ4=A9FCRF;f?B%Vd
(gj*%6Snp5K7GkEyT=Ii9)zPUw0!OQCHJFgdL<n&;nyL2Gb*x.qa49Vtd|!9z=FB~t<Sr3=?vGo0m>2IHeQ4r6.+VD4b*Jl<l0<a
$r:aa$gYig,|w3APgmIthcXM~H9^9lXEhJu5E9Z_DM;jk^G^jni*/:8sUI*mI5d9qtV?I^WWR:I+q420zS1I?gk]*M9pV9*e!~]!
l2&z!:d,VSu;afQE),/MAXeV?kAmYeVH;aPf[6zcq0)PJm$%he&bKescSuV)V6;]gDARZZwecNbrpsyjQ7p%7qHb:X?Vg7Fn,z~=
rdx>EyHpbL][z_)8Xw)x]%2)6lILPQ?Y)_~UR./&jEM9V=Z,I|i~Xz26;U_l&jJ|2H$Zgtq5Wf6N>!azc9C|j?2$h)q:Y~h=iaZ<
<2VX7TswSYuI,q2oq09*K!O5Z9qRKiUIQ(:D02[$2tY~*p.V|g|*|0cF64DVo/3Ta=i_aZ?2K_!wuFgZm!(E/hpMrQOP<9WK7x5X
$ot$.JL%%S[*Lq0O0<EMc4/yn:DjOwGfT?O8sVs~;+mSjg&Pj,,LUR<.$/5_|f433UP*uZ]a9FQ*nRkdms+f,Ee1]/dn%3ttVs9y
rJf4~>dBk.FR02%;ukhoA0%2(S]I[r!73_4Zg:mY76wds+^6hQNV+c[B!Xkp01Y)I3lMsK1DnT)xjHkFap>G>rTi+|;tH%xG&7YF
jTAF~U((6G5:L83Ra710<k[;,AO]VFgK?yJP9Cb>ea7mqtVdJiEo]Dk57)mtM.A*>Iw|Ia=MelTN1x%YTwaqIQZ^M$K[hp*>A_y~
EAfy$F4Ay&ylTHtet&yuX;5huhvw0q]:B&&~Re:F5n|$^~B1y+MQn2+z^/Gi1$hv?*(3&%NSK](|0T%&kA|yrLt?vp?IhrQx).r^
e[_*ua.Z=>I)fi!N[=p&OgdX!&=d!<fQ;e|NZgo)=E!laIJc23Zu:Z]>4!9a)1:+v^rorKNzC0%O)_xd0GIZ?d;/.>7t_v<z+Ryn
H~CWdXx&u$1nccEsCkHy~vx5d,KTn*gv4T:.Vu*37]_S/<_95i[r&(Pe%:<Md3_GQG+v)*Ga/<&XOZ/o$?^[haG6>my_b.KOmYJ+
JyYc.lln7p^,AnT>n3o/H*896Se*9jAVhH7YFsW8e*NKqdJNAL9oo!qmVITiv76N;m[IiTskc%GR.U_u9~)MyJ!)Nm[ZS1ALi0^3
O]g/e,4SppI.K15GUK,&WxG_Uw/Tq^3hz9a^lNX9.vZ~vb~%5SgU]b516F?!Ig0xFkGIOymlb0ll=$fi;!48m%(;z*Dk<LI:5H!8
u7*R43,h!.eN?9%9|z&f$kEeAyOtaQ^$Uj2UJHCo.WweYv]CW;wide:,V8%qZf1,Sl|~SqHAj%!:L[&*LWFevE4&l=fmC*&i$<,>
K5C=OApxZu5|WGfY$F~s,,?1c)x7R9Zxp.gE&qj+Dhl4G)_g5w78wS%O~5ar<eL86pX6qEqv>pEl+YCq69N0aiE,y7lKgwhRTrEr
FgX2OduYCf+pw>OJ3D5H3a1:arCjy>GYV,Q:gwfs=U?Y<jXO4pb|o^w_O_dyoiocNl_8E]BmlkffYLbol&D_^4.:16Z_<DD?k.(R
K%9)(AP^xxr8]il7^Y20.Rg1<zP7z/T2Xogx,DFdPghYcZDeHiO0;b~j([t$fDow?1De)i2nvq(wSkC!nDG+!Y?WAv64X(Wk1^0?
|[aU|c*dtz_XOyzpL>6G[Xk.06=%4VgB2aI$<]<,U~~PVvn>/jo42VMhuuJlESz*?:!Kr(..01/&](dN=JaY+y>lcYu:7&lGw3:n
*z,/ch/N9s$?kHfu3s<%g$6GFwaP(BMTY1ZWP>,tnJN*SYjQFE!IhcD&85xs]tpwFQ%]:Fr<4SP6E)>Smy:$3P~apd<_1,%5lCAm
$sIHrPD!4^>9^=r*kamE2:q3llc)ii7wKb9TZCut.rpq,wuDa2ZUS6ap;W]x=dEYz?I)B|U&)[HXG7vVGghwoh~|,YVv(XD5arBb
Y+D0r<H:/(Pg*T5MUgYy8bH!fE_lY_3h,EhKd_^Z.V4UbCFJR:^(anmU|yQR2_jdArSYxaCc:]orMxM~!/kpjh6FL32ycafq^>&_
7p8=MY&Ep8^Yp8gt!4RJw1_eG4p(ORfwJeJNF2cdufR&chJmC>h:G1>lBL*t/TwhVxr<e+8|b&P!4_ZenZ=6~Xau^C4xYGKS~5UH
Ks<vbVo|;iEl[O9j2ns0Ic=dI,vW:M_qi1Qv.Ad&//W;yj?^WY>lyG$R!eQ>X>)B[~|VpI1<APjt%(&1R$=q*2g(G7>GGKpf*5I>
p4813~C0^!h13]F/015uG2wNt8euOkO68OQVm)!e]4O_z6T,%8;[iMqag0)RpcR^M&B1:FmAoEIj!LSae(BQ?8(Hp>AJ>;>BYSpH
Zl)~[fwR):[/+1Xccp),X~/M3?Zw8maFQf.KUZz>x_u7GQ_L%iCobk1k8D!dg|16Jl2!b.p.7j%Hwk]9/j]22/L+jIu?!+XHP_Kw
d:pc+soq[7b~(VeY_IhT4!Rpw~l<7eW[QP=g&;^yXo9Tgr$G!Qu<DhZrO;hTGqLZ[eF%SWx4]2d5E90iV<>i4AgKlwCs8O+.HD)2
</&rT[n4F%vDf(pUctaMvc%)dVxiht+er62Q.ry!dVucA=cb%eg2pLU8PtVwhCgz%r**9Q|o1Y!B74E,UILRDRb~Ld*aP%v7&|g&
gP^2t14K1qUITbmdg42GjKurEB$k8Jk&,VNa>*$X=ihj=2y0%j(ZZRI3z;|,SY47V.E.bS4+u4l$)^|;^1JbrQE~o9TP[NYlp20e
fHrK<BRd|:vzbFX9PPyt/P=46!;!~]3MM5)X!o>;G^1>o(x_S==hz:oAEQF3V,BYZ9l(y%2,gN7CsO9SNiKe|&/gN8.;8<Vsj|]w
CnKf!F[>GFa4*$/DmXY9iaeH8fEnkWsg3=+<ygi/F&x)VJ1pDMbZSiGBH<nOu[k~2g<$L6w|)AjXcS_19:zVK[+QzQ[2Y~xmSR&X
pwIOYz&Zu=:uV8JJ/fIR,X8$%^b<;6G)dNEz|yR:w5D/7?_(y&snl7].b0$0.TWCVStXlmxPKP]Rk3LzRA[_R5hqsu:Ivko)UQ+f
RmXi>*M^S4T5fKtAp==VM)c:D29Jn);dQCa$d~8>gyBLz3X3(M+;QmPicxs&D;qxYCrz),4LRG9WvA+;dW.Zs6K3z3[LZP383fGj
V]]]TNtYaE:2]/4:3YD/T4xa&d4t8=;VY[S[StM7%5~|6%NybF?I9Wea0JHlItBUYM~<!uZ5,[9KW4w(<^D|9lBNPynM~D$n$vy[
.F;%C^2+v7JW?)h.eP%%>a[W>AuC6OsD8*2uf>r$L.Ws;&(i[qdu0P0r)tv~]q>agcqLZb7_Y9Vg(*+!+G^Jv3Mvp;u4hQ~If,m,
C:VJtQ]Km4.;hk?d,BR.WIy_,gx]X29u5ulCIWOhPReBS]S(L~k%*FQ+Ck02B1D*cE^&w+.1&/o%O.J9mC!G[sKeKR!E8IdmA84U
=ABhg3:vY8s,X/Y9$Z8<1*Jk:<E]_G*~5jvKQ6MYE&SsyXlUQa^Siol8(4!7h0f?:|S&dW&bRYH[+QZO)EN/EHIGGMWnlA&;Q11v
0c>WkQ7hJyD|RFBJRBW1=p4f:UiKKkDwzRItDvB*vEIn|eGQu3~zGxYqwj(OYv^e1Gp7<N%9t,Im?;EmK?7dcBTGi;%_)]/<x0Ga
%Z7$3P.Gq2m3NFE_W([D4+9P4JjFm~(&%oaW,Gl&yw^6j*v]~uv/Y%gswgP&D5[jU.M4bcg*7~|DL.?z(0V+WNH[1e<&^.n,eIKo
7)&_862K!g1xeqJMs1~^[.>Y)[_n[D!2SO$vn(l*V7czIb~Ls=ttTCLm663iD^0/NWI+S_,s%eToL/duCW1ZjVk+S6Y)7Vz^on$E
1jhsYzWUjZ[?h|M.eEj/.pv;<mc&yZP93pO<r5A4Yt&%c(/Db=rNxzdRb*vBn,6WxmX^P6>9UfsP0,onpo,Wiglkr8avt*!yy:Y=
/n6T*55sxI;WKprZhU3aWC%b~~F2F;U;qR]23Ml(my2,l1V&nQN:Dl>i7%<JdW6zjo3O/C7~2Fuww9(uKMa,(e15^L$zNC3j]d47
tw6azK:Vu+!1wmFy~q%/O.=nT6[8>zaIK;BE/L![EJM2$eWV(>*!~Ax49hfhQg&dXC(5WWv)!<2jv[bPGq/)K0JpmInEH^78M?7g
:8_bC^~k7e;A&_2X>E</W5Ide0u6^egFlbo=J)fnM3HD/JNXtwAN/>BtLGR48L8z^E)=m!y/oFzqy)]Y)sxGdwNQe(.CbHGUdBQ2
!*Fd0_r5zi.].r$2cD8?&ITcvf6$nNB[.=YXVtSQ=VhYkQzr/&m0pVBB]4DFP;j96[zedK0g?<&H6$Td2</R&E_(9$FePd_(.uKd
Z&Rekbjv48+lbHxg/5(2pOV5(Bzmvypx0CSl_eB%XyrFssB=XMYdS&=86^t7I$vWH,Q;8&UzmuEJmqL/8dhd7OS=^zG~Z=nJ:Ej2
L6+VqE(3I^vVD.MD5=HdU8IyZRQIne+<.C_Q1Lc^uUNbEq3jiV!Bl[R)L[+%r7.8DmsKT<8h!/5i[r*NMi%LAI$T7T?XswhJYS_5
Q=VPBy4+UEzkfH7]]=:%w%d!En.S(?v6vCHeJf(UEPe*CF0?i6QfGwny)=5GYxK4gk7SM4Ajb/YxMqd4M2+1=MOxPvhDI?2u8S:N
nRC,.gwMPIANDQx4>~3h9nTW9+IP_S.D|E*Fj1aD+MxXeH_xC4$C.3$3cgMzT^p)(:ef,vP)xaQNM8aDgf<P7D667g_^IydowI^x
c~2mso0fZN4m/bH+qtWe>1Ai5fB[m[a_>fgA~fiTV,[g]pq3e/_I3q9U_;JA(hl6A+D4o<8|m$6kwNxL$wro,CEo+q)[M?8M<$8b
aH:TFfH0W%_20SBU(>;f+&om|HB5(ebm(+&1RhUkkO+I2ELisy8kh|TDZY0EL*]CzVv|0$5>4F0fpmT10,:RT/TZydgoxl.Oioy.
a[1HiDJn]l3r.Cpwz>n63b,;JZaWQ.5AXMyR7QUW6|fac4ViU3rk_&dIRBy(rQnBIowfjJgwKM+fV[(J|!4&=4sKrwT5d6<yC_$L
Sm:Hd7=wY14A%<*9^&Vp/NI,2HMBg,vy$M79Xx8m70h&9t^r3~6xOSXWuFDtTDe2*NxAqX(J&+$ohg%FA?8UA|72|_/AW,TUet]&
D/G3U7QHAoo9ZQh7~1>OM$t$6qL(ZbiL[/U1>sq=cnC<:a;>,_ZtW%q~w$c!HEo(73nr):nDHk[RPwW6%~wq4lQ464!tsYl5OEGR
!NZAe>y^jmU3)_M6:X,:^m:K.04AZR6u*I<sZo5|/G0mW;_1K7lo%)UeEAMe3RaT:ib!Mmgdg?yJ[!K.&yIrYtXD1h,tK%iw>>T5
3$]W/dRBy+Eu76dC6c;Qdu~l&rt~z,^HCxy3l+~Z1VLf|cMN=Sdco%Bi,czm8t95qhUu5c%cZMtkgpie/wA$z<PYClh_J3Q^8j0j
Q|!]kCQ7N0f2fh$0Pmlh|fu_>gV13l8Kyh3vvK:NvYgRLS.!S0)IhUq/o<Pj6g9~mp0a&$1e1qn(qec3z%wSCvVNKdjyeov5i1r>
W(SM]0O~4K%/tu!AbH5>tTS8>iUR*_q$zd3FAuika=hr+FA_Z?ZV&UTmyU&/8Vsd5%/PF)r8[Tz,We)I?H!|IIY?ptBuiYKA&z(D
^tG75!yZdEnw5lZ|=vzc1D*+R$Oo>N]k:zLI*_>Vh^4Ptfj[*FEkX8b[eLxKRCBHQ,J4QhD7WYsqLzfFVQ|/yi9(lSU[bQeoH5&L
d9IP,dgyUxwS)HR(V]2y6Jked2E7ksUaJj>L9MJh_o)t5yCxidGgtv1xp7y<APqr%U[sD^k2xHRq(O:YaCsZ|]E()Q;%1;;S]vSc
2uVD~2NDWvCTgVr?<;tYswU$85J6lj[&x7/:SYOTbOh!Q/N_gKriR.]sqzgNUag.pQvhkRy/>=Kvp2aeeFH?Kh~i3z?O<sFChgx<
o+%c.qjZU&?$IPFO~m:*snd7M/H$$y*s:1dObt6x*NHD(GI(]e!sjN1HMRd&Io(w^Z=nc[5m_vRX0rQ~8.]%d~Vdn3a<5]35YekY
jGAaBwOzYb&IKAbTYY*u>t^+6MDip;5tensgmgR=KYmT,)+c?ySf<80q8UarOT0X$y=7A:q:RmR12Y~_U.?haE?SSe*&]hxX9jnb
Okq;b5zz[1d0wf3s,_?HmiAU1~NfMn?R4F3oqjz5_Rdh(pKFKag[u2|v0wj7uh8j3;cd12K7XtEDy%3IU>qB9Fhhb61.,9fE8R0P
iLEgz/x+.gsnvLA7_1fr;f0sZ4A]lO;AlMEqV,|J7f&Jl?Z((NdRR4GGh>(l5Aq7k*$NB+CTZY5R8i_Wl6y?UBT?9d>kgj|&V,_L
!;O/dTQ$iIq4gXA)ZE,LSf)LeQCnt+xs1zg[!=P+3p5AuVpn%lRJ*Cc8Ux_C(J2b:a[sPXHBniQ&V[&_kIWI_3?;EYO;jb$bRF=~
Jc|]Qh08i)^()i!h)BBx$VTlbNkO1Mzs>GH?^~&:Rv(dh~9([(G,^BH$drq7(z5ell)c]sY9<~?Az7rpC<>!+;(m!w^5?xbCiCGm
86/&<*FItMHg)ZRcx9cc]xxR0&YQPgGG=WS:<)W:upEb8f!t^vzVxU_h=?+M1M^3).*.E5LX>%G)O]49Z.<skp55+V48nF%Co|f^
gxhSPqLHtq!&!?]uu$fj4sI$rnNgF,1%BUA9:c4Op(9&g~*C4].lYotaxSw|8YABEYvh9[4QeRZtTwDFf4H=FuEjAx)2<qVr*8xH
mxZexQrpfeWO4,sS,):;CW4dwP*!cI4(tZE5T%RDekH[cV^m.nNTR[~b3mQw,,eM.bZj?:0^2utek|<zrzVx^k/>IX]A0q:F)J3w
)wx!vEvRj~HTCx90uRO$!w]yiPWztXuS;wrkUu%d*KV!Eb%2Fk9&PX[M:J+|Ju^JL.lX8garfjxvKwm~,&W~jR;LE=$sIFa1jy/+
R7YW,t_:appdFY*l<[ZyJl?fq&*Z.tSIgEXlY.=e)sPERV2OE&Ft+|<A&cL1a[(I8~G7>ka&ms8Jh*G7F,9v.<eKtqM2:;zCe<*H
=z)iB;:JwIs3qM~^jnhsLa^]x1_IPf>x7Kl$.<OB1]/n*ON]eN7|G+.EO2T77G2*7uHqMg19rhcqb=+rEtzsFM2X5shSYrN3iY[[
X.DOI815&1<*]<avCBL?clARc9vV9;Q%;(goJ3W,4cr1m_oR&$qTiY%CLBTnovOGbThXW/BKBl%A=,27b$8jUbb)H/S%.RPLS7he
<nX&~4BkkP|ro5K(<)LOcl^s?ui&B4ie0b70bB4:4s;),SFV.p:th]g+0k&$EqFl;7Kl=jA*AD!.Y|2jrikCB!6OBM,AuE|CtVD/
1A8(fvQy^]$)PgUZ]h3S0OZeb5;u3rAA;x&G]xwK[c*~6g9Ym_Yftd7c^.zp7hy((%0>i+_<>J?UUS~JDDAx2X%G+1.n*m)z^<dG
px.|;nQiA2<Ktftz!bCG!SvV2S!<zTg6Y&PVxS>*=BD[K)Y2LqwxMlFTZ5lHQ~AUxQ9Dd9+r&R[4WZ9(zp1uc<QySm~6vkK6G?&>
$)2*xH|BR1&5Q0bWtxernSl=pC[ufn/.yt1!uB0.o=kK4W6g5i<x5;c^6=2X);$KR&k*ZX$YjiASnqNp*8h!Nz^t(u^bwD)6?>K[
00VO50wdZYFQ^)b3iV%kG~xr(BACHnNY|67kf~6JxATzeJ6dE2x;1Xg)j?!2$gWn,WX1QfTLn>K&:vSTgYOheR(|&Ck7;8^nmvKY
VJ:E42Aql~3gjV>Hzl<lI(LwZV^YMuF]+VgvHQ>8cV7&|3w0zZD=D2_70K9l,Fvp1(n%%A%(iX/oB(W|gl1Efva4Wa4ttex_JsZU
L/uz0%MA1akloly&U0IR1?[S<IP?v~b=<;hH7AVz~bF4?5/Sc:IoqaPhv.1FS2GQ]BQZG,siqD||iX.g.NX1HL^!cJAtA~PTc<27
kFq|ecFhi_Ln)&XghEq7BtMk,CN*.rLZ<I,8MqbT*^L/G>4$iSV)Pq!2WUo~)J(H.1vk=GuwrHl=m0JdWZK)aUvLy<Xq<z(,m.A<
;CqCJ%|IG<m%EoUMXmtyD6^Um8~KyC25s[1Tr%Tny!?bH|_[/4:/*YUEMO!SlEu7Omq.!<gJTz]TS7(K*5J15nUreVOsFvt&VMw^
eahOv60$^?_p)1u)3ozrNpS.nh*qII%^hz0mA3n72MPAa:ZT*V|wueupOsK/!2muMKsX+|wwC(dAT<aR:LwSfIx~Z!1Yuwb]ah,4
/M%^(iGIzcB0NYm&Vrn5h|*g5v<=:sq=c?DwZf3x[!Y(jMjCS%2g~OhLeIc2+PXu(E8)=Ze~GO1euZaW>7XBZv.P_6SVS]=jH>K8
E,Zyy[lB9ZZHvR]nK:qv)4J]DEJs*nv;j28T?R!zn$moQ(u^44hF%)7q3<Y0G(Z,?5dd)l8oml(]M/&Pyz=J0[c%Mcs<ev)|&k_Z
?x4g_/l>9l7,8u!r9I&yJ(u*BgNjlyis5(49Dt^z42U^(2^f2R&lrI;frHI31*JjM]m2ROgwlrPh6v0S75KBRdxvcka].pUq,%,6
XwXR+^Q^/AixH)JcEuw%9%VFEfZ~U<um(9*.J$))I&mc+GR)vjr,xy!0+5G2Bg/yvZ^tHh<C4=uave%hb2g7Hl[]gb]a:+?*%232
08E]Jty0*!ZeGbbuze05:owMz6c>b]Co;~/0&Mcg?k$~~HpCyC)MI!lLVk(apt3I37N7%kJiePFbF,X7x4&OJ/^BWcCt$GKxC$R%
y%dix:(zlCFEm1Hv:XT]gIB7c7EqkYzQ?tNPtIK=(aez|1_kz0>$APZKU257?N)&uV,eM2(&P==6.eN5hz7X9e~tCRq6c.hShpTG
Z$z2z_*;Nva+~Kdjtw%~kv2DbI!]>3PT5>x5PRz6bp,CFdSJ~?1pAA_uk/=pUz|.8ec9j=AYZ*t:&1Ir4M3nCS2&6t/we951?xaC
U4%+G2&1w8p_/w05*msAc7Qh1bPcSZ0gu],d)vZP,t&t!a5<6):X2WGBT&S+2ZwqF+aSU<h42Fvh>l$|L5K^vX!F!]2Wv6EB0xrC
|7C=pTnfJu7$BIA]gm!>?u?R!m35ahhIZpCOOFDl%~WJmIMJUUuM<q&9>$yDGc89>/CIzP,PGJp!&.Yu(eb6$RL]/NqS,mc?8;U_
Tl!nKozzeuB~Q1kajxCj6(ZH8~fl_vF.Ip/w:?84~.1Y8Csw2vG5Df!/^PiusysQZiaAW_laTRt5yVi9U=cxjnxz+d2mA.5^_qJn
>N%XIpc3ag[Rw%AEt>_W%zzC,QqLk8jg)|wYoq4)JfNNuE7yg1,E7G3Ed=9B+YLv.ga+iKE1:z>)BCNx+KK&BV|DKmKUUtRfPF:E
m!bgWf|n/bwNg?$CrJ0JF[v:&_+~e>xYtiMP~drv21f77hIa*/D=DGp?5NbkM2VC~Q.!<Pbp>F<~iUoaI%pOLMV?Qj.?|<_jL[?$
8&v2XG+gh]bpc4M3q|k(qbC*ueDDMc9<93osr;b;KbB&;u03H%9,<$gCWwY[nF|5BTMZqn.v2T/(N5rtLIk7ZUR(<L)AEk*U*5k>
*~2$Qz$hR,<f8%1o|L*1xt7Cn*wn<ggeQ!N3aCniGptMLc|=,U6YMUEeK;1SXAVT^Ly*S!s8Y7)!:Gp%$UB893FC_+,,D+Hbd2E=
4x98iM+^sTNC|K6YKPP.~^mZgnO47|WurKIj]HH_:BzH3BLxd$4n8z.|,(WMvQInUUmYDdR~fbrk3WNREt0j|;r61gEUry|:NiHV
)DC>pjM*($/wVSQxE[+Es?3Ci6Y^|vm,,|^D$(e=gsnQ[,2Zm79[4UM,e?ifX)+q>!FVN|~k|!$[8G:Xf4i&5=Bf11D>|9Psph3b
&ffoi4iR8qN^P<=tf?>h=66ob?4*F*wvyR(z|Fb:./!&75taH?*h!oHp?vTMr2g*y4)otRKSSbJjt6oa(mT?_vk2xcoWd0[!Ll9;
|J|rq4odtS<M<xefW~k,k|G]FqEbL39e!:K!M|Ma;vH^NE(M^!Utj4=?:i_[z>]kSZd<_?~Ed*SO&NuU=KL|It7<c[mu+N&|yoae
g5eo.AiATyhcaQR!N<pF!PP(OSw:^nM8!tm6Ndo6a0G=$ohNau5S[|BzgyZlvlbdU;3UQTLRBlk5Eq8YI?K!<BEQjq/5XXkP6|4D
>$yCGBqTE^_UvK;(?&nQ6ak7HmzVfWQm0;NM|26~+(=R~,1eXPHv7d>4RgHNfxARN$l7c=VJ|cIlQx)!;~Vb&TG3<IGt_~0C.lK]
~RH+cx,L)4>m%W)I?]FZR5Stz+PcZ0o24OU^CU?xH)[FXQHEODMQRxKB4,j|,Ouhnt5Gf*oDogmy*=Hto7rs:DqfYPySoFRL2SVp
03n9BcNa8CryI,&N5HhiKgJBu^uKWzu=HlI^ZFGTgk(wYOHRp2|y9!mpBX(C4HdTUSe2NE/jzhsW5Lz!uJx~rnqcd_mh=AwrggZ,
Z9Ib0rP2iaDToc6xIAIeZe5Omgm87UE1a2dGcJFkmBnMU>D|/yCxYcPJnf4*,z!It9ARz3RF4]g<FI%[yPhCL<Atz*r&5Oq/x!5x
jGKsBefA0*[R^/=2K.IR0g*sH6?Dt]QC0iXlE1dn6fe2CDoD5x&=eTA8Y7k?d2BPR9FjM:Z4OE)U^wYUDt*(]*1D2V]vY+ru?w<.
ikI1TAh88Cr![s<ZoKWOE$FWefYJ!!.^==*w?CG~UR?8^Jn!+;y/x&3K9Eh57kjl$<;%0;8mslM+%bs1o~~F>_uQY<UI00Tu=5%F
HQ!;Yyt_&8>Z(4eVWQ5.DaHSc*s6prB+1%|c9os;j?un^A^.,(^K3EQNXsJZvpUUDr)9dC<+sICl/L,/51!R1R(b$;qCl$<,7DCt
3xwAs:%pI&yRzv/b,$yP=^u]l%5V9t7;m=Q(M>gf,&O3g9kanlJxZyrlYP=iGs7w/1cHpM;rfTlH:2)EyJHH4GaVBOAePWB0WKDX
Y2yMY8qb],<g;0da/|l2|)DiV|4[yf!ixDPLRU!ubZx(eFRXnMa|Pw>i:n:=m_Gm0G1?TOB;l*/;/Ac=WtI[&eqZfx25yXWlf6jy
ew]r&laF<q%CIcmGuHUs&,j~1XDF2v.WN5vooC2M<Q$ZtdF,(Ryj_cRKTdkNG$(o7y~r/]u8&&)]z1N;wv20vlYcacm0;,YZ5tb=
ipO,5rVa/$A[8w(GZm<8CHqVx5P58|3jMoN)ZH%mD8;0..W/O[Y|78JrnQ|10A0!T?8~6hq1!IsHl:RU|a!&X/wxj~q|_C%2$H_m
!=_6&3yy2x$|ekWCrkPK.+UGpqnC]>3yGymm8!1sH_n2c3Up1DV!jh98%ryw_0(/)5Yh(XWlja(F?TSa!1<yWQ^Mt0|lramtKv(q
tqL~8BjmVh:LeeyaqYMZE08ji>A:O7Q!_RWV^45AM]KFUvtk.S6$7RDva?vSK+ofc!3AMps=wxO5peM:+V%ym~z6O[HcwH[C?4]4
|z&I/MQ1p!_U!iKd9=*jeTK38;/*AQ8uXuzn+d=g:|he~%h7CQp$nXiSomi!&vI:2hBpg/Q%u~=zI8_Q~jb?~CT$%amPz9t_i$n]
MlN]jEq76C=tWB,tKTo]$(~HmcK8Vhn59pG(NYx[%NFjAteV9kupX5Y<fk>&.RwUgU&lofPVeSRRb?9.AuQJkO*h&IVmp)Lm!8DH
?,%52oS.E;Qc<Pje]|kATxJQR~050$AZ,SQD<hYH,%&eHt?^yns)ilO|&hErMV:Z!7$:6(763Vcb.g4eP!w:W.uHmSo;yNJ<omAa
v;BP(eRyyrVG=Q%BB2~Ax_IB!%am!ug37&KFFrX*n&WYvGy9$q!bUOQp]]P?gYc)k?.sUxjmE[wP,1U&S0XCGH=I4b]WT.J50Y]~
cjaJ>*t,EykOu~XZC=9Co!~~%,T9YYz/nnnDgHG*=SuoE!ac2d7kACYM6J04Euo7,G!3d/TIaPj^dEUs9yHguIL6BGh2/R,c&Mid
s64)8M8$Zo8g$os!6<eC:SM_epE$?R=4g.f6IYb8,20g)8ra&J9X&>m241H4]2+,j7j;j[JnkzE?)Q$;SJzPy25OX_P5H]vbKrmd
E;ScDaDcgGrugcArkkC]uGAyzMOn^;<03KsPT6*,WrwQsK4Ep7j8ugk8TUf1x.v<,6Q(FKT&eb3|tR6OjJax>5Ln9T6C?ySJg?IT
dM^fXQp9j[^]qd6$MuIfNznui~r]gtB.d=zJ6iPZODfEGsWhU,JEh~4q&OQS9Sz~pMrP)c8Z?:SXh<o7VphTocL8NVD_xA>tkSVz
g[3fch.6R?uFSJ.=/.pp_k^^8*~DtEb3II^EKZ9*,sXVT+om=be|a&N*v5c&jXc?LCdpyhIL?O1(*s>riiGyQbwGxx39RUL^SJq7
;fcDg?)!ku5eflT=2<>!?9![17Y_HQFqUb*mnp_=+gV5/)1f;?N<Zz87gS&UcM,rb3WSB:Urs/^<&Brv!Kc]$*9nuVNM~zL:,Rzu
T2^deiF:Ez(*(Wx.17^3f/6ooV|6WA:?H^*i[yN[/q0AuLf6+vK[UL:[[j<&|b~KjA!9gS/R;4MU:+s:yzXB/]JE1l?9hjaa7Ct*
/Q6aWh>DuqJI&QuwDwKSI~uQJ?$C|UO3N(<&Q/o8G_Gi_Jscz_7>26m$u]q,<,Oy>4lbB~]N+g,W:.j?6TUn;0Wzbkl%FMeSbeo^
2lV*E4|n3CdDXQBz_)>lTJU:z$lJZW7mBi/vpngWqja22~1w9tGo.1!kj^^UKJfH8L*:t)f1w2Mldw793Z3G5^?K5f+SQ~d]N[Z?
d*1+grVO^$p%B|&Y3k7ArpB8z$m^?vmjDlEyxUsNnb4L+WD_UHCJwk8hQx6pW%gM%*u)jM(Ef<h;;Wp_>/(3w)EN4^<zA4T!Msid
1QwB9*N|^X+OJDh5+TtY^pXDq)O$&)K[Zm[*O??CHX=|wPo=N9sMj<F/JH<4yV6;P$t0bbpBD3NKa4XI]K,>5JRj9pZ(3cchwY:m
V$~_k3n0Ls^X^[/2XX~EunapT<?g*$1,L|;Dm$BDZGig:L[z%Oo6xBVcB<XZRc79EMuvf2Ml^7txPRk<r!oPpEGzyYBmd04GD:c*
aoqxN5D^0[.s0Id(I[k;|y6nj0c]lCvCl)WdH7R^u9W?kT)sCo7JcL~uo3A[Wqi54ze$54r_o63*z|3X)j=fsA2!I/ES%y5BX/A]
oWn![LFI/,HC4E;)m7,S<xP/md_mzRUd)44M=iMIX~jFF5*U<=h2mfv9ELW_7C<+_sDw9(rinASOyjw^^s0eo0d~z9[IfqX]?BPj
GLY&<b/OgpBcsCD<FaxG1fwU.d%R3ekb<p<mW9FZfis74(r*9~5TC7Lt$G+<l<(72ed*YK%mN|d9r0!wquTBpJ4C+Q%RpphP192s
$3O4J9l|)D]zkw.|5o~;NyE4cnCbyupoSYw(wj5*%1Z=y5jiO%mQL:,IYG[s]IqkT,XSE>_0qtp06j+qOx]w4AlN2~(w,t,Ew?St
cJsw]!UZ_o9wnd%!7vH?eVqas0rsh]I~D^.6J2~=Do[H?e52Br6Z:QuC:aK2n|m&vGoZGV442MJ9~]g_=9coJe*c4_Aij/3JWEvv
d7<=W)m!4)*H0L1V6?/truwd,E?U:x%_DM?DnRt5VToOTG^L=3._StuVQP^?k|d,Zr6Dp|;d:Y0Ann2cI03~2T.ENG58gFt21^&a
hYZO4MR%MerROfmh)NnkbHxs?&a~DrzA|TY1+=2tN5rc>lwEEO.$DEx]eYkj6so1FxIHN0DIThCldNas9sx$(+j5Q1t:&qLzdP]u
+9P1QDlp7*H,0*,:XAy&TwGVc]Tdlgsd$ZQIgSllj2$P5%Gz8x+o:>3ksR1lGd_=JWliYmw1(L0C3U!&WD1GDDw=j+0u~q/E:=Ne
bB1g9]N=lL&^i]!KX:&2:84mdlpn.Yy_lgzA9S$VGcb7Lry_et|$+qCZEXOUm0Blq(z3787D4_EmK:02kv:42k8duuzL|ijZr,G*
si,!1x.&O2Tfb6(cxyl:])o574xmd35)J8>lB0Fg>P$3t:JC*K*cgO!Gc:Qzhix/W/X10JLTnOWjDd/ATh8QVyn04ed|XMEM!rDK
|t4BqvVbyJF1ndPord:p>W9r7v_1vcvWsd!yAtw(^|]Rn=C6fgXIw?6LIi4wOrY>P+Cm(%tuc*jpnq0sV[2IJPIP|8Pv_;)?x7AU
p,nDT0uB<wn?|id+TB%y(lSXB0BN0ov<2RMx;y5Nk4O<<u%A(fw8Iau%66<UMSVg|P0IjDnJznUz07t7i2=V?DFax(x8o$P_1fQT
:;]f^s0860%~J5v9(UYCZYfAs5Q2,:Tdhw01KA5b$uk<EN%,.0F/n,coq<fAiW?dKUX*d|!/33iFbSVfK1$eLa9efhUmW)[bZK0*
R]qDE.(h^QAH2_bq4*NXO_PDG(NtA?LM&LI44$rJi*?mrauL0;Y0:(db6a$&LH%NWBKt<1rMo,A4tjda+ZpO%_VPw_7CF;WF?w<Z
H+D4X<zk]M^Xid.7Nr!xL.]qM_]13d$;h>%NWmVY5HWMetI66C_HWW,mFF!e9B^N!r&+Xqa/4AsZ|l^l8e>!r6G1wn9*sK!|Bfft
teJ6:+TRbvkW1oL/Y+[J_)6H:<7NYe>]31RO]R~[]8j&*;:GqJ?rhL+H1Xqua*P2.^Ws)7S2Y>DMMgKTC).nJzC81EWsW:|$[$Po
vY_8;5!Nf*>lm<NJGto,gRO)_=QLp=1[fIkSG?QF.>?p~A_%rSVC[2&Z<c(_viyS|d|A7D|=LC;<]?ovQ4oLH22eM4F4(?cUl&&y
F=J]QHto*ADA1pWqayEl~7tqUxd0fy/:$_RPc;|5B,PvJ5FpxPtPIG:jBmXSHhQNl|GH|533s%$XoOZyTh[)OWK9|T5<lC;i/td8
AzcbZ>y%S2[e50vW!(Ha[$cg.w&59hs9|1,+yqQEO>LthxYOd)eBe43JrNhZYBS0f66^x_ekqj2eY.SMs^B>2mI?$2y!laa*yywl
__T,oidDdfk6Do,luy0E$qak^UrFlpjleMN7ny~u~jP+JyUrbZ)p~dXwdTI<Kru$tnA%x,^)GubONdZdA,+pm7cX40:Ijsk8:4QP
WqRgNx?)n/FI!6k/:XJ<IPxx+stxcPLqgc/NZ]EPuG.CJ583LS6kZIM~FWG+vUa^0^xSLxQZt^%ck&7hb6UH5U,A$>EQVle9D4gl
ZMWV|&jvFc$:od89YehMF2mnDBjb<KA0k<)e>(IQx*j%jJAnK2]+/ls*3t:4HS3z5s|mK__IV4)j(Ru:o|axAQ^(ard.e65bdeho
*EQ(,.(6|O$<tQz;/_KroJ_*2ua4tQ&W&Cu+9fpF4l%m=GBjnXvLr&G;P9MtpZ.._==Wbun1mc7RvraNy!Hq/2B5q;D?)J%lda:~
I]>9r_,J$_B3hoOUlE1V+A9)r)N>=Lxo9uJ?g?9,9yQi5>25K*!MoppCtoC;HsxSxK,gZmE2T>^/B%JtoU8^GPU:KXP4k%;nU1ee
9G.NQVIBi(Lk:~s>c)ZhG=rIGB0D%$KxtNZmEwvr&s^B7Aw=T+MW:Ld<].3kfDW4)B*Esl$tLjJvSl&|dwsq&ZRFKbGaoIjH_YoV
z;AxF=G_k:iY872iy_rB64X[nCY]Tiuw.hYU|:*Q*,a~5W|uSv7KLvYpvF<kf^Q2OyWP+JOYoavm)LyQK?P%Vy(gG*l;4baw?o*!
Nt~3n<4LOH4Bn?<.5WVwxrfa01Up|!_(Hz2^6lLw8[X])UHf7Q%O0i$iqGfJc^rd!(ScwmXF[o91CTM^acLreygyK?x4Pc);ZCB>
fj:Nyfvb~J+EdP1hoUX?&nd<vx!_0.E!ep<ldy0nljT/wi~S;s4PjU|KRE[DUmozrygRjbDF7KIQxsBfx![B&+:R1DlF!4k^bLD[
<nhtxskB)/ILv(VROp2VAe/,c;iY[=IiS*ROJVkw^5wYXZ&5/E(PbIE&=3[f!;JsK$_4GZ&/Opp<85 1.s)Mi=%Nn>AyV]8kGzay
z[~NTU+Q*FYD92G^k%z/f6SOSmJPe>.jbOH)2M(BjJJs.Tpp!:~ELuDX*AB(xecYIoiIOdy;?xUFpnCau=fh MwzIM^<(!)Fh h/
ttL1_sW!7>MnH~Lg5R):X?iZ(Fnb3bdbBz+=DEZ[ zLHH*uC~ID)(fj2B!Y 20l3cz4u?W 2.i[r4plB,EVBZ^|JrRAmd/<pUi/[
z:Z.JA1bj_8ySMpkG6n)uW&V[53>q H:gakNS>VS=XuLE953vu6QCZkHJIi6nZm[ At$STBK4>pp*pQ8TQCv|),(5nva=! 2pVUh
(K=gmr2T1txYBvhP/p*OchpufkZj7m4N[Ca4L.e7!jv:aoNZn=?xUQo?_vix~SbTu.ZmhWo%?v]A<9Usj:qN^9o=*x1R(7+SbtAO
Sx?1IaUqR&fEhme+T,n?e+YolQu^n(i65bHHVlfM(+< Em.KFMpX=<lz_YdqP?B2Hjm]CZ*<tfk$^Gd>aLd<DD;?N.<O^YKlt=L(
jT;utxCi.ZjU0>_aYu]l[cM<MF65[%QMWW/Kq]b^N2$^od**[HTXiE5DwYCw~mc)VN>5aW1l|ex7EB,W=mC,W.WqpmAM&B!tiwX,
u=lJy>]5PREz/0Vz=1fRU4=9E~r$Tok!fW]9uhw~S7EBE|XH[Y7|hT$!ni&E;L3XLcwK%Jt;9Dr)MAsyeLM58aVnmoO,1fshRC~^
.*dSUz* C9kr.YOA=gUb7BpVB6iU>I;lUU7.1Ch;^P_$kVi>pwR^hyz9*?rMTx!I_ee2r^Fp&CYn[[w2>|n,r%w7=&3=saEa7nQ]
5$a)&cI$Lin2&=>xyLF4Be;+])]i9urQ2im&IT;veK%s=gpYW]7c2GtEyw+,t33Zjpk!;dO_loh4$yYE1oOTV.>WbhJOz.s|hvda
;[^hSTgsjj[[:[jM[*=|=BywcP+NkVRQ8tNp,eDvxh%T)BnX*dEhsh7wp]<LXIo;T6vjh5aD[g|Lh9qzJLYwj!<gp8AgZ>HePI=F
niU?R7vqHGH|xbjWLweR7]d.lc!|3boD]0MWI+y^cn=]B$d,DLMK!dY3~UbX,)li*$(M9OLA?yW&MjlKK:)8D+3B[0^WJRg8P$Q|
i<WM=$dgE>|QJ>y)Q:bA3mWCA.O%X)[H2zsrjAWHKuui_xE0m[0bFH:8KiK[$V(?2x>6*,m8aZ=E^Zpuq+.GgC(W~f|;41mlgPue
Vsz~68alm8Nb$XZZT[H5ieYqUj~8R%U:FCi4>F4in<NCd!NrICA$uw>zRbdIp7,;T4>(~Zuj:qq$y$yJt0Q:jDTtKZ9r]<ypdZY~
GW5x%!$3>K.[F=TPG/hd/ZaCdu;;hwvmi7nxRmRR|sZgJo9=XJ^SsU%+s2JAWNO7gp5xux/C/ESopT*WzoF6R)(F95MQ9+;%|+|f
M<WEp3!<lb%d:s<5jhq*xJfQlP=<g:9p_]XuC6:Bqe<=/Z>Z;<X!rh>p+ZG4?+dgXtj8&niDfrj61o4iUc3,)Qekx^EZ)n9ypWm!
Uw!mN6UM6KoJZ1H11s[/ZaYDC[x!81=Ng%n8O2g3OGAmlp8MZ(tv4|3e!PQ*n%<O+4h8_L0wWFsy26|Vy!o!FAR|iR~Iv7CWY!^t
$_(duK]Gouz7.0y&n,|O9UcgO$raLtHD=o!s&K;L_l:siy0doacVm/ffH/>p17Db0g~bh5zL[x0i?<5,1+_51aD>$?BIJY_v8P/u
<BYvMc)$umjx~y=wogPT<ylUuw*h,eHw,3y/hAMU>B*5Px4LK.mL%!3bsw|^vvMEKoagjO++uQi1([>ZAa,EdhyhqN1MZ6mPV0p9
STf2877YKpNU..0.=^q!Y1iS=2O15CrxcDy*!Ki1ROCBZ*8xEH&+C!B&$0Y>wVw=slfpedh|IbBt+(<[zeom&e0Aw+=IFbdX)n?^
n*q7YGgqoo/%sljb24_bkSX~H:k(8.m9ZMBNh<C!6fC6BI>rk9SqObdV8I<c|QVbT.dT?tQHiA?<]8y,imp+8opGU$_ybqu<L&qO
w1Of~Qvpsm[,oq0uliou,%&U,3,(7sbbS~WgPgu/TDL0[[$SsMfp$ZT1bWfGn?nNy&2v?az7o+$L<]8B),,1Y,1C9~>:~yq8E4A$
RJJy%:PY7vOlNx>BwsPmTy?DBjY5eF5ZD~BLnbpx]PdM>ha6j*JYSIpijcnc;uzUJs9tB0F:v;F%,jfh2UVTZ$At,+wN_o(]yF8G
&>)Iy^+u!G0p 7$9$dM9Yh_Y0qoZYYu5Bg<ev/ 7+QsWAp]?16eKK4bCZQ&M:SX>8JXMl)S8.QEd;XJ3ZYIlCRDaCSmzC 8CchM
, 1a]AF?+DxLhg&[0k20KORX)M X,I).0/sllegn:YCru1t X(ku=^JB^? PdPVJ1oQWufhI8,1dc|U0dU*[auFDC2t*^md<LbO3
FobvdaXBLXXVYSEMVn^O[9<n^ln*3<)53PjVLo?eVJHyJ_XCV7(djQ%uxGbx8+G|<zoKiGAncBBvlH&UNMY uq3NQ~1W9=xvmLuw
Gz2j,t/>wON+y]~a8Xtor&Zg0km!UiGm2!L+x 5mva$Y(>[ 2!eO> B2UT]ru67Q*;nzZc9stT$|<EcgvcDsy) 2U<QQ<!S?;YX;
nc$G0&NDPCp8|ZZXRkrr!]=Y]U$~hS6|7=Jia!00T( H~(,>Py:PTPaI+Xr)rP^eUe%4bdjFvB8.0Cqu;&|+B/GAHkw 2h.2($UX
+al 5/]sX8= OfhU$p"

def standardSymbols : List (String × List String) :=
  packages.zip (unpack ∅ ((packedNames.toList.filter (· != '\n')).splitOn ' '))

def declaresAll (path : String) (names : List String) : Bool :=
  match standardSymbols.lookup path with
  | none => false
  | some known => names.all known.contains

end ReactiveModel.Imports
